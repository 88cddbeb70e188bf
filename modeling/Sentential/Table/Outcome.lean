import Sentential.Statement.Basic

/-!
# Outcomes, row by row and column by column

The outcome of a statement in a row is the values of its marked sub-expressions and its own. There
are two ways to the outcomes of many rows. Row by row, each row is an assignment under which the
formulas are evaluated. Column by column, a formula becomes the list of its values in all rows, put
together from the lists of its parts; the variables are found by their place in the rows, so that no
assignment is made. Both evaluate the marked sub-expressions before the statement, and left operands
before right ones.
-/

namespace Sentential

/-- The values of a statement and of its marked sub-expressions in one row. -/
structure Outcome where
  marked : List Bool
  value : Bool
  deriving DecidableEq, Repr

namespace Outcome

/-- All values of a row, that of the statement last. -/
def bits (o : Outcome) : List Bool :=
  o.marked ++ [o.value]

end Outcome

namespace Statement

/-! ## Row by row -/

/-- The outcome of a statement under an assignment. -/
def outcome (s : Statement) (a : Assignment) : Except Undefined Outcome :=
  match Formula.evalList a s.subExpressions with
  | .error u => .error u
  | .ok marked =>
    match s.root.eval a with
    | .error u => .error u
    | .ok value => .ok ⟨marked, value⟩

/-- The outcomes of a statement under several assignments. -/
def outcomes (s : Statement) : List Assignment → Except Undefined (List Outcome)
  | [] => .ok []
  | a :: as =>
    match s.outcome a with
    | .error u => .error u
    | .ok o =>
      match s.outcomes as with
      | .error u => .error u
      | .ok os => .ok (o :: os)

end Statement

/-! ## Column by column -/

namespace Column

/-- The place of a name in a list, the last one if it is repeated. -/
def place? (name : Text) : List Text → Option Nat
  | [] => none
  | n :: rest =>
    match place? name rest with
    | some i => some (i + 1)
    | none => if n = name then some 0 else none

/-- The column of a connective, from the columns of its operands. -/
def combine : Connective → List Bool → List Bool → List Bool
  | .and, l, r => l.zipWith (· && ·) r
  | .or, l, r => l.zipWith (· || ·) r
  | .xor, l, r => l.zipWith Bool.xor r
  | .nand, l, r => (l.zipWith (· && ·) r).map (!·)
  | .implies, l, r => (l.map (!·)).zipWith (· || ·) r
  | .iff, l, r => l.zipWith (· == ·) r

/-- The values of a formula in all rows, where a row holds the values of `names` in order. -/
def ofFormula (names : List Text) (rows : List (List Bool)) :
    Formula → Except Undefined (List Bool)
  | .literal lexeme => .ok (rows.map fun _ => Formula.literalValue lexeme)
  | .var _ name =>
    match place? name names with
    | some i => .ok (rows.map fun row => row.getD i false)
    | none => .error ⟨.name name, none⟩
  | .not _ f =>
    match ofFormula names rows f with
    | .error u => .error u
    | .ok column => .ok (column.map (!·))
  | .binary op _ f g =>
    match ofFormula names rows f with
    | .error u => .error u
    | .ok left =>
      match ofFormula names rows g with
      | .error u => .error u
      | .ok right => .ok (combine op left right)

/-- The columns of several formulas. -/
def ofList (names : List Text) (rows : List (List Bool)) :
    List Formula → Except Undefined (List (List Bool))
  | [] => .ok []
  | f :: fs =>
    match ofFormula names rows f with
    | .error u => .error u
    | .ok column =>
      match ofList names rows fs with
      | .error u => .error u
      | .ok columns => .ok (column :: columns)

/-- Columns side by side: the rows of a table of the given height. -/
def stack (height : Nat) (columns : List (List Bool)) : List (List Bool) :=
  columns.foldr (List.zipWith (· :: ·)) (List.replicate height [])

end Column

namespace Statement

/-- The outcomes of a statement in rows that hold the values of its variables in order. -/
def columnOutcomes (s : Statement) (rows : List (List Bool)) : Except Undefined (List Outcome) :=
  match Column.ofList s.atoms rows s.subExpressions with
  | .error u => .error u
  | .ok marked =>
    match Column.ofFormula s.atoms rows s.root with
    | .error u => .error u
    | .ok values => .ok ((Column.stack rows.length marked).zipWith Outcome.mk values)

end Statement

end Sentential
