import Sentential.Table.Layout

/-!
# Tables as comma-separated values

The first record holds the titles of all columns, and every further one the truth values of a row.
The values of a row are those of the enumeration, one for each variable even where variables are
repeated. A title is quoted where it would otherwise be read as something else.
-/

namespace Sentential.Table

/-- Whether a field must be quoted: it has a separator, a quote or a line end in it, or it is empty
and alone in its record. -/
def mustQuote (alone : Bool) (field : Text) : Bool :=
  field.contains ',' || field.contains '"' || field.contains '\n' || (alone && field.isEmpty)

/-- A field of a record; in a quoted one the quotes are doubled. -/
def csvField (alone : Bool) (field : Text) : Text :=
  if mustQuote alone field then
    '"' :: field.flatMap (fun c => if c = '"' then ['"', '"'] else [c]) ++ ['"']
  else field

/-- A record: its fields with commas between them. -/
def csvRecord (fields : List Text) : Text :=
  [','].intercalate (fields.map (csvField (fields.length == 1)))

/-- The text of a truth value in a record. -/
def csvBit (b : Bool) : Text :=
  if b then "True".toList else "False".toList

/-- The comma-separated text of a table, if its titles can be printed. -/
def csv? (t : Table) : Option Text :=
  t.columns?.map fun titles =>
    Text.unlines (csvRecord titles ::
      (allRows t.statement.atoms.length).zipWith
        (fun bits row => csvRecord ((bits ++ row.outcome.bits).map csvBit)) t.rows)

end Sentential.Table
