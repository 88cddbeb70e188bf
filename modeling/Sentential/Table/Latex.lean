import Sentential.Table.Layout

/-!
# Tables as LaTeX arrays

A table becomes an array in display mathematics. A double rule stands between the variables and the
expressions, single rules between other columns. The titles are typeset formulas, so that no
spelling of the source reaches them.
-/

namespace Sentential.Table

/-- Centred columns with single rules between them. -/
def ruledColumns (count : Nat) : Text :=
  ['|'].intercalate (List.replicate count ['c'])

/-- The column declaration of an array with variables and further columns. -/
def arrayColumns (atoms others : Nat) : Text :=
  if atoms = 0 then ruledColumns others
  else ruledColumns atoms ++ "||".toList ++ ruledColumns others

/-- The titles of the array: the variables, then the typeset expressions. -/
def latexTitles (t : Table) (d : DisplayOptions) : List Text :=
  t.statement.atoms ++
    (if d.showSubExpressions then t.statement.subExpressions.map Formula.latex else []) ++
    [t.statement.root.latex]

/-- Cells with separators between them. -/
def latexCells (texts : List Text) : Text :=
  " & ".toList.intercalate texts

/-- The LaTeX text of a table. -/
def latex (t : Table) (d : DisplayOptions) : Text :=
  let titles := t.latexTitles d
  let count := t.statement.atoms.length
  Text.unlines <|
    ["\\[".toList,
      "\\begin\x7barray\x7d\x7b".toList ++ arrayColumns count (titles.length - count) ++ ['\x7d'],
      latexCells titles ++ " \\\\ \\hline".toList] ++
    (t.visibleRows d).map (fun row =>
      latexCells ((cells d row).map d.format) ++ " \\\\".toList) ++
    ["\\end\x7barray\x7d".toList, "\\]".toList]

end Sentential.Table
