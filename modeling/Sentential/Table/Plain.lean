import Sentential.Table.Layout

/-!
# Tables as plain text

Every column is as wide as its title and the longer text of a truth value need, and its texts start
at its left end:

    | p     | q     | p and q |
    | true  | true  | true    |
-/

namespace Sentential.Table

/-- The titles of the shown columns, if all shown sub-expressions can be printed. -/
def titles? (t : Table) (d : DisplayOptions) : Option (List Text) :=
  if d.showSubExpressions then t.columns?
  else some (t.statement.atoms ++ [t.statement.text])

/-- The width of a column with a title. -/
def columnWidth (d : DisplayOptions) (title : Text) : Nat :=
  max title.length (max d.trueText.length d.falseText.length)

/-- A line of a table: texts between bars, each filled up with blanks to its column's width. Where
the texts and the columns are not equally many the longer list is cut off. -/
def plainLine (widths : List Nat) (texts : List Text) : Text :=
  "| ".toList ++
    " | ".toList.intercalate (widths.zipWith (fun width t => t.rightpad width ' ') texts) ++
    " |".toList

/-- The plain text of a table, if its titles can be printed. -/
def plain? (t : Table) (d : DisplayOptions) : Option Text :=
  (t.titles? d).map fun titles =>
    let widths := titles.map (columnWidth d)
    Text.unlines (plainLine widths titles ::
      (t.visibleRows d).map fun row => plainLine widths ((cells d row).map d.format))

end Sentential.Table
