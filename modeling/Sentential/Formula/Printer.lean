import Sentential.Formula.Basic
import Sentential.Text.Alphanumeric

/-!
# Printed and typeset formulas

A printed formula has parentheses around every compound of two and otherwise the lexemes it was
written with, so that reading it again gives the formula back. The typeset form knows only meanings:
every spelling of a connective becomes one command.
-/

namespace Sentential.Formula

/-- The formula in its own lexemes, every compound of two in parentheses. A negation that is
written with a word stands apart from its operand. There is no printed form where a negation has an
empty lexeme. -/
def print? : Formula → Option Text
  | literal lexeme => some lexeme
  | var _ name => some name
  | not lexeme f =>
    match lexeme.getLast?, f.print? with
    | some c, some t => some (lexeme ++ (if Text.isAlphanumeric c then ' ' :: t else t))
    | _, _ => none
  | binary _ lexeme f g =>
    match f.print?, g.print? with
    | some t, some u => some ('(' :: t ++ ' ' :: lexeme ++ ' ' :: u ++ [')'])
    | _, _ => none

/-- The printed forms of several formulas, if all of them have one. -/
def printList? : List Formula → Option (List Text)
  | [] => some []
  | f :: fs =>
    match f.print?, printList? fs with
    | some t, some ts => some (t :: ts)
    | _, _ => none

/-- The formula typeset in mathematics: the constants top and bottom for the literals, and one
command for each connective however it is spelled. -/
def latex : Formula → Text
  | literal lexeme => if literalValue lexeme then "\\top".toList else "\\bot".toList
  | var _ name => name
  | not _ f => "\\lnot ".toList ++ f.latex
  | binary op _ f g => '(' :: f.latex ++ ' ' :: op.latex ++ ' ' :: g.latex ++ [')']

end Sentential.Formula
