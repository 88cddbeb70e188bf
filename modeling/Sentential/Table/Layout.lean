import Sentential.Table.Basic
import Sentential.Display

/-!
# Rows and cells for display

What the text and the LaTeX form of a table share: the rows that are visible, and the truth values
that stand in the cells of a row.
-/

namespace Sentential.Table

/-- The rows that are shown: all of them, or those in which the statement is true. -/
def visibleRows (t : Table) (d : DisplayOptions) : List Row :=
  if d.onlyShowTrue then t.rows.filter (·.outcome.value) else t.rows

/-- The truth values of a row: its assignment, its marked sub-expressions if they are shown, and its
statement. -/
def cells (d : DisplayOptions) (row : Row) : List Bool :=
  row.assignment.entries.map Prod.snd ++
    if d.showSubExpressions then row.outcome.bits else [row.outcome.value]

end Sentential.Table
