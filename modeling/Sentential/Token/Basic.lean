import Sentential.Connective

/-!
# Tokens

A token is a piece of an expression together with its kind. The kinds stand here in the order in
which a piece is tried against them: whatever reads as a literal is no variable.
-/

namespace Sentential

/-- What a piece of an expression is. -/
inductive Kind where
  | negation
  | connective (c : Connective)
  | openParen
  | closeParen
  | literal
  | var
  deriving DecidableEq, Repr

namespace Kind

/-- The kinds in the order of their precedence in reading. -/
def all : List Kind :=
  [negation, connective .and, connective .or, connective .xor, connective .nand,
    connective .implies, connective .iff, openParen, closeParen, literal, var]

/-- The name a kind has in messages. -/
def label : Kind → Text
  | negation => "NOT".toList
  | connective .and => "AND".toList
  | connective .or => "OR".toList
  | connective .xor => "XOR".toList
  | connective .nand => "NAND".toList
  | connective .implies => "IMPLIES".toList
  | connective .iff => "IFF".toList
  | openParen => "OPEN_PAREN".toList
  | closeParen => "CLOSE_PAREN".toList
  | literal => "BOOLEAN".toList
  | var => "VARIABLE".toList

end Kind

/-- A piece of an expression, as it is written, and its kind. -/
structure Token where
  kind : Kind
  lexeme : Text
  deriving DecidableEq, Repr

namespace Token

/-- The token as messages show it. -/
def shown (t : Token) : Text :=
  t.kind.label ++ ':' :: t.lexeme

/-- A list of tokens as messages show it. -/
def showList (ts : List Token) : Text :=
  '[' :: ", ".toList.intercalate (ts.map shown) ++ [']']

end Token

end Sentential
