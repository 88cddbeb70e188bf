import Sentential.Text.Basic

/-!
# How tables are displayed

The texts for the two truth values, and which rows and columns are shown.
-/

namespace Sentential

/-- The choices for the text and LaTeX forms of a table. -/
structure DisplayOptions where
  trueText : Text := "true".toList
  falseText : Text := "false".toList
  showSubExpressions : Bool := false
  onlyShowTrue : Bool := false
  deriving DecidableEq, Repr

namespace DisplayOptions

/-- The text of a truth value. -/
def format (d : DisplayOptions) (b : Bool) : Text :=
  if b then d.trueText else d.falseText

end DisplayOptions

end Sentential
