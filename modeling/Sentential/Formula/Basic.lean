import Sentential.Connective

/-!
# Formulas

A formula is built from literals and variables by negation and the binary connectives. Every part
remembers the lexeme it was written with, so that a formula can be printed as its author spelled
it.

Two formulas are the same when they are built alike from the same lexemes. The name of a variable
does not count beside its lexeme; where formulas come from a text the two are equal.
-/

namespace Sentential

/-- A propositional formula, each part with the lexeme it is written with. -/
inductive Formula where
  | literal (lexeme : Text)
  | var (lexeme name : Text)
  | not (lexeme : Text) (operand : Formula)
  | binary (op : Connective) (lexeme : Text) (left right : Formula)
  deriving DecidableEq, Repr, Inhabited

namespace Formula

/-- The spellings of the literal that is true; every other literal is false. -/
def trueLexemes : List Text :=
  ["true", "t", "T", "y", "Y", "1"].map String.toList

/-- The truth value of a literal. -/
def literalValue (lexeme : Text) : Bool :=
  trueLexemes.contains lexeme

/-- The height of the formula as a tree, where a leaf has height one. -/
def depth : Formula → Nat
  | literal _ | var _ _ => 1
  | not _ f => f.depth + 1
  | binary _ _ f g => max f.depth g.depth + 1

/-- The immediate parts of a formula. -/
def children : Formula → List Formula
  | literal _ | var _ _ => []
  | not _ f => [f]
  | binary _ _ f g => [f, g]

/-- The part of a formula to which a path leads, each step of which counts the immediate parts. -/
def at? : Formula → List Nat → Option Formula
  | f, [] => some f
  | f, i :: path =>
    match f.children[i]? with
    | some g => g.at? path
    | none => none

/-- The names of the variables from left to right, as often as they occur. -/
def names : Formula → List Text
  | literal _ => []
  | var _ name => [name]
  | not _ f => f.names
  | binary _ _ f g => f.names ++ g.names

/-- Whether two formulas are built alike from the same lexemes. -/
def same : Formula → Formula → Bool
  | literal a, literal b => a == b
  | var a _, var b _ => a == b
  | not a f, not b g => a == b && f.same g
  | binary c a f g, binary d b h k => c == d && a == b && f.same h && g.same k
  | _, _ => false

/-- Whether two lists hold the same formulas in the same places. -/
def sameList : List Formula → List Formula → Bool
  | [], [] => true
  | f :: fs, g :: gs => f.same g && sameList fs gs
  | _, _ => false

end Formula

end Sentential
