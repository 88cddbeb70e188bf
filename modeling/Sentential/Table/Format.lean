import Sentential.Table.Plain
import Sentential.Table.Latex
import Sentential.Table.Csv

/-!
# Output formats

A table is rendered in one of three formats, each chosen by its name.
-/

namespace Sentential

/-- A form in which a table is written. -/
inductive Format where
  | text
  | latex
  | csv
  deriving DecidableEq, Repr

namespace Format

/-- The format with a name. -/
def ofName? (name : Text) : Option Format :=
  if name = "text".toList then some text
  else if name = "latex".toList then some latex
  else if name = "csv".toList then some csv
  else none

/-- The ending of the names of files in a format. -/
def extension : Format → Text
  | text => "txt".toList
  | latex => "tex".toList
  | csv => "csv".toList

/-- The wording for a name that no format has. -/
def unknownMessage (name : Text) : Text :=
  "Unknown output format ".toList ++ Text.quoted name

end Format

namespace Table

/-- The table in a format. There is none if a title in it has no printed form. -/
def render? (t : Table) (d : DisplayOptions) : Format → Option Text
  | .text => t.plain? d
  | .latex => some (t.latex d)
  | .csv => t.csv?

end Table

end Sentential
