import Sentential.Proofs.Columns
import Sentential.Proofs.Typesetting

/-!
# Cells of an array

An array declares its columns, and its lines are cells with separators between them. The declaration
is made from numbers, the titles from formulas and the other lines from rows, and in all three there
is the same number of columns. Cutting a line at the separators gives its cells back, as long as no
cell has an ampersand in it; typeset formulas have none, whatever the formulas were written with.

The titles depend on the shape of the formulas alone, and so do the variables and the rows. So
nothing of the spelling can be seen in the array.
-/

namespace Sentential

namespace Text

/-- The cells of a line: the pieces between the separators, which are found from the left and do not
overlap. -/
def cutCells : Text → List Text
  | [] => [[]]
  | ' ' :: '&' :: ' ' :: rest => [] :: cutCells rest
  | c :: rest =>
    match cutCells rest with
    | [] => [[c]]
    | cell :: cells => (c :: cell) :: cells

theorem cutCells_cons {c : Char} {rest cell : Text} {cells : List Text}
    (hopen : ∀ more, c :: rest ≠ ' ' :: '&' :: ' ' :: more) (h : cutCells rest = cell :: cells) :
    cutCells (c :: rest) = (c :: cell) :: cells := by
  rw [cutCells]
  · rw [h]
  · intro more hc hrest
    exact hopen more (by rw [hc, hrest])

theorem cutCells_single {cell : Text} (h : '&' ∉ cell) : cutCells cell = [cell] := by
  induction cell with
  | nil => rfl
  | cons c cell ih =>
      refine cutCells_cons (fun more heq => h ?_) (ih fun hmem => h (List.mem_cons_of_mem c hmem))
      rw [heq]
      simp

theorem cutCells_append {cell : Text} (h : '&' ∉ cell) (rest : Text) :
    cutCells (cell ++ " & ".toList ++ rest) = cell :: cutCells rest := by
  induction cell with
  | nil => rfl
  | cons c cell ih =>
      refine cutCells_cons (fun more heq => ?_) (ih fun hmem => h (List.mem_cons_of_mem c hmem))
      -- the separator would have to begin before the cell ends
      cases cell with
      | nil =>
          injection heq with _ heq
          injection heq with heq _
          exact absurd heq (by decide)
      | cons e cell =>
          injection heq with _ heq
          injection heq with heq _
          exact h (heq ▸ by simp)

end Text

namespace Table

theorem latexCells_cons (t : Text) {texts : List Text} (h : texts ≠ []) :
    latexCells (t :: texts) = t ++ " & ".toList ++ latexCells texts := by
  cases texts with
  | nil => exact absurd rfl h
  | cons u texts => rw [latexCells, List.intercalate_cons_cons, latexCells]

theorem latexCells_append_ending (front : List Text) (last ending : Text) :
    latexCells (front ++ [last]) ++ ending = latexCells (front ++ [last ++ ending]) := by
  induction front with
  | nil => simp [latexCells, List.intercalate]
  | cons t front ih =>
      rw [List.cons_append, latexCells_cons t (by simp), List.append_assoc, ih, List.cons_append,
        latexCells_cons t (by simp)]

/-- The cells of a line are found again, the last of them with what ends the line. -/
theorem cutCells_latexCells {front : List Text} {last ending : Text} (hfront : ∀ t ∈ front, '&' ∉ t)
    (hlast : '&' ∉ last) (hending : '&' ∉ ending) :
    Text.cutCells (latexCells (front ++ [last]) ++ ending) = front ++ [last ++ ending] := by
  rw [latexCells_append_ending]
  induction front with
  | nil =>
      rw [List.nil_append, latexCells, List.intercalate_singleton]
      exact Text.cutCells_single fun h => (List.mem_append.mp h).elim hlast hending
  | cons t front ih =>
      obtain ⟨ht, hfront⟩ := List.forall_mem_cons.mp hfront
      rw [List.cons_append, latexCells_cons t (by simp), Text.cutCells_append ht, ih hfront]

theorem mem_latexCells {texts : List Text} {c : Char} (h : c ∈ latexCells texts) :
    c ∈ " & ".toList ∨ ∃ t ∈ texts, c ∈ t := by
  induction texts with
  | nil => cases h
  | cons t texts ih =>
      by_cases hne : texts = []
      · subst hne
        rw [latexCells, List.intercalate_singleton] at h
        exact .inr ⟨t, List.mem_cons_self, h⟩
      · rw [latexCells_cons t hne] at h
        rcases List.mem_append.mp h with h | h
        · rcases List.mem_append.mp h with h | h
          · exact .inr ⟨t, List.mem_cons_self, h⟩
          · exact .inl h
        · exact (ih h).imp_right fun ⟨u, hu, hc⟩ => ⟨u, List.mem_cons_of_mem t hu, hc⟩

/-! ## Columns and rules -/

/-- How many rules stand behind a column, where some of the columns are variables: two behind the
last variable, none behind the last column, else one. -/
def rulesBehind (atoms columns j : Nat) : Nat :=
  if j + 1 = columns then 0 else if j + 1 = atoms then 2 else 1

theorem ruledColumns_succ (m : Nat) :
    ruledColumns (m + 1) = ((List.range m).flatMap fun _ => "c|".toList) ++ ['c'] := by
  induction m with
  | zero => rfl
  | succ m ih =>
      rw [ruledColumns, List.replicate_succ, List.replicate_succ, List.intercalate_cons_cons,
        ← List.replicate_succ, ← ruledColumns, ih, List.range_succ_eq_map, List.flatMap_cons,
        List.flatMap_map]
      rfl

/-- Columns with single rules between them and some rules behind the last. -/
theorem flatMap_ruled {rules : Nat → Nat} {m last : Nat} (h : ∀ j < m, rules j = 1)
    (hlast : rules m = last) :
    ((List.range (m + 1)).flatMap fun j => 'c' :: List.replicate (rules j) '|') =
      ruledColumns (m + 1) ++ List.replicate last '|' := by
  have hbefore : ((List.range m).flatMap fun j => 'c' :: List.replicate (rules j) '|') =
      (List.range m).flatMap fun _ => "c|".toList := by
    refine List.flatMap_congr fun j hj => ?_
    rw [h j (List.mem_range.mp hj)]
    rfl
  rw [List.range_succ, List.flatMap_append, hbefore, ruledColumns_succ, List.flatMap_singleton,
    hlast, List.append_assoc]
  rfl

theorem arrayColumns_eq (atoms others : Nat) :
    arrayColumns atoms (others + 1) =
      (List.range (atoms + others + 1)).flatMap fun j =>
        'c' :: List.replicate (rulesBehind atoms (atoms + others + 1) j) '|' := by
  -- the columns behind the variables, counted from the first of them
  have hbehind : ((List.range (others + 1)).flatMap fun j =>
      'c' :: List.replicate (rulesBehind atoms (atoms + others + 1) (atoms + j)) '|') =
      ruledColumns (others + 1) ++ List.replicate 0 '|' := by
    refine flatMap_ruled (fun j hj => ?_) ?_
    · rw [rulesBehind, if_neg (by omega), if_neg (by omega)]
    · rw [rulesBehind, if_pos rfl]
  rw [Nat.add_assoc, List.range_add, List.flatMap_append, List.flatMap_map, ← Nat.add_assoc,
    hbehind, List.replicate_zero, List.append_nil, arrayColumns]
  cases atoms with
  | zero => rfl
  | succ p =>
      have hbefore : ((List.range (p + 1)).flatMap fun j =>
          'c' :: List.replicate (rulesBehind (p + 1) (p + 1 + others + 1) j) '|') =
          ruledColumns (p + 1) ++ List.replicate 2 '|' := by
        refine flatMap_ruled (fun j hj => ?_) ?_
        · rw [rulesBehind, if_neg (by omega), if_neg (by omega)]
        · rw [rulesBehind, if_neg (by omega), if_pos rfl]
      rw [hbefore, if_neg (Nat.succ_ne_zero p)]
      rfl

/-! ## Lines -/

variable {s s' : Statement} {d : DisplayOptions}

/-- The line that declares the columns. -/
def arrayPreamble (atoms columns : Nat) : Text :=
  "\\begin\x7barray\x7d\x7b".toList ++
    ((List.range columns).flatMap fun j =>
      'c' :: List.replicate (rulesBehind atoms columns j) '|') ++ ['\x7d']

theorem arrayPreamble_eq (atoms others : Nat) :
    arrayPreamble atoms (atoms + others + 1) =
      "\\begin\x7barray\x7d\x7b".toList ++ arrayColumns atoms (others + 1) ++ ['\x7d'] := by
  rw [arrayColumns_eq]
  rfl

/-- The line of the titles. -/
def headerLine (t : Table) (d : DisplayOptions) : Text :=
  latexCells (t.latexTitles d) ++ " \\\\ \\hline".toList

/-- The line of a row. -/
def rowLine (d : DisplayOptions) (row : Row) : Text :=
  latexCells ((cells d row).map d.format) ++ " \\\\".toList

/-- All lines of the array. -/
def arrayLines (t : Table) (d : DisplayOptions) : List Text :=
  ["\\[".toList, arrayPreamble t.statement.atoms.length (columnCount d t.statement),
      headerLine t d] ++
    (t.visibleRows d).map (rowLine d) ++ ["\\end\x7barray\x7d".toList, "\\]".toList]

theorem latex_eq (t : Table) (d : DisplayOptions) : t.latex d = Text.unlines (arrayLines t d) := by
  have hothers : (t.latexTitles d).length - t.statement.atoms.length =
      (shownFormulas d t.statement).length + 1 := by
    rw [latexTitles_eq, List.length_append, List.length_append, List.length_map,
      List.length_singleton]
    omega
  rw [arrayLines, columnCount, arrayPreamble_eq, ← hothers]
  rfl

theorem length_arrayLines (t : Table) (d : DisplayOptions) :
    (arrayLines t d).length = 5 + (t.visibleRows d).length := by
  rw [arrayLines, List.length_append, List.length_append, List.length_map]
  show 3 + _ + 2 = _
  omega

theorem notMem_arrayPreamble (atoms columns : Nat) : '\n' ∉ arrayPreamble atoms columns := by
  intro hmem
  rcases List.mem_append.mp hmem with hmem | hmem
  · rcases List.mem_append.mp hmem with hmem | hmem
    · exact absurd hmem (by decide)
    · obtain ⟨j, -, hmem⟩ := List.mem_flatMap.mp hmem
      rcases List.mem_cons.mp hmem with hmem | hmem
      · exact absurd hmem (by decide)
      · exact absurd (List.eq_of_mem_replicate hmem) (by decide)
  · exact absurd hmem (by decide)

theorem notMem_latexCells {texts : List Text} {ending : Text} (h : ∀ t ∈ texts, '\n' ∉ t)
    (hending : '\n' ∉ ending) : '\n' ∉ latexCells texts ++ ending := by
  intro hmem
  rcases List.mem_append.mp hmem with hmem | hmem
  · rcases mem_latexCells hmem with hmem | ⟨t, ht, hmem⟩
    · exact absurd hmem (by decide)
    · exact h t ht hmem
  · exact hending hmem

/-- No line is broken if no title and no text of a truth value is. -/
theorem notMem_arrayLines {t : Table} (htitles : ∀ title ∈ t.latexTitles d, '\n' ∉ title)
    (htrue : '\n' ∉ d.trueText) (hfalse : '\n' ∉ d.falseText) :
    ∀ line ∈ arrayLines t d, '\n' ∉ line := by
  refine List.forall_mem_append.mpr ⟨List.forall_mem_append.mpr ⟨?_, fun line hline => ?_⟩, ?_⟩
  · refine List.forall_mem_cons.mpr ⟨by decide, List.forall_mem_cons.mpr
      ⟨notMem_arrayPreamble _ _, List.forall_mem_singleton.mpr ?_⟩⟩
    exact notMem_latexCells htitles (by decide)
  · obtain ⟨row, -, rfl⟩ := List.mem_map.mp hline
    exact notMem_latexCells (notMem_map_format htrue hfalse _) (by decide)
  · decide

theorem cutCells_headerLine {t : Table} (h : ∀ title ∈ t.latexTitles d, '&' ∉ title) :
    Text.cutCells (headerLine t d) =
      t.statement.atoms ++ (shownFormulas d t.statement).map Formula.latex ++
        [t.statement.root.latex ++ " \\\\ \\hline".toList] := by
  rw [latexTitles_eq] at h
  obtain ⟨hfront, hlast⟩ := List.forall_mem_append.mp h
  rw [headerLine, latexTitles_eq]
  exact cutCells_latexCells hfront (hlast _ (List.mem_singleton_self _)) (by decide)

theorem cutCells_rowLine (htrue : '&' ∉ d.trueText) (hfalse : '&' ∉ d.falseText) (row : Row) :
    Text.cutCells (rowLine d row) =
      (row.assignment.entries.map Prod.snd ++
        if d.showSubExpressions then row.outcome.marked else []).map d.format ++
          [d.format row.outcome.value ++ " \\\\".toList] := by
  have hampersand := notMem_map_format htrue hfalse (cells d row)
  rw [cells_eq, List.map_append] at hampersand
  obtain ⟨hfront, hlast⟩ := List.forall_mem_append.mp hampersand
  rw [rowLine, cells_eq, List.map_append]
  exact cutCells_latexCells hfront (hlast _ (List.mem_singleton_self _)) (by decide)

/-! ## Other spellings -/

/-- Nothing of the spelling of a statement is left in its array. -/
theorem latex_eq_of_alike (hatoms : s.atoms = s'.atoms) (hroot : s.root.Alike s'.root)
    (hmarked : List.Forall₂ Formula.Alike s.subExpressions s'.subExpressions) :
    (byMeaning s).latex d = (byMeaning s').latex d := by
  have htitles : (byMeaning s).latexTitles d = (byMeaning s').latexTitles d := by
    have hshown : (shownFormulas d s).map Formula.latex =
        (shownFormulas d s').map Formula.latex := by
      unfold shownFormulas
      split
      · exact Formula.map_latex_eq hmarked
      · rfl
    rw [latexTitles_eq, latexTitles_eq]
    show s.atoms ++ (shownFormulas d s).map Formula.latex ++ [s.root.latex] =
      s'.atoms ++ (shownFormulas d s').map Formula.latex ++ [s'.root.latex]
    rw [hatoms, hshown, hroot.latex_eq]
  -- the rows themselves differ, since their assignments keep the text of the statement
  have hcells := map_cells_eq (d := d) hatoms (Statement.meaning_eq_of_alike hroot hmarked)
  have hbody := congrArg (List.map fun bits : List Bool =>
    latexCells (bits.map d.format) ++ " \\\\".toList) hcells
  simp only [List.map_map, Function.comp_def] at hbody
  have hlength : (byMeaning s).statement.atoms.length = (byMeaning s').statement.atoms.length :=
    congrArg List.length hatoms
  simp only [latex, htitles, hlength, hbody]

end Table

namespace Statement

variable {o : ParseOptions} {text : Text} {s : Statement} {d : DisplayOptions}

/-- The titles of an array are typeset. -/
theorem all_isTypeset_titles (h : parse o text = .ok s) (d : DisplayOptions) :
    ∀ title ∈ s.atoms ++ (Table.shownFormulas d s).map Formula.latex ++ [s.root.latex],
      title.all Text.isTypeset = true := by
  intro title htitle
  rcases List.mem_append.mp htitle with htitle | htitle
  · rcases List.mem_append.mp htitle with htitle | htitle
    · obtain ⟨c, rfl, hc, -⟩ := exists_char_of_mem_atoms h htitle
      simp [Text.isTypeset, hc]
    · obtain ⟨f, hf, rfl⟩ := List.mem_map.mp htitle
      exact Formula.all_isTypeset_latex (lettered_of_parse h
        (List.mem_cons_of_mem _ (Table.mem_of_mem_shownFormulas hf)))
  · rw [List.mem_singleton.mp htitle]
    exact Formula.all_isTypeset_latex (lettered_of_parse h List.mem_cons_self)

/-- The array of a statement's table declares its columns, and has a line for the titles and one for
each visible row, which are cut at the separators into as many cells as there are columns: the
titles, and the texts of what stands in the row. No sign of an operator is found in a title. More
than that, the array depends on nothing but the shape of the formulas, so that it is the same for
the statement in any other spelling. -/
theorem latex_array (h : parse o text = .ok s) (hcount : s.atoms.length ≤ Table.maxVariables)
    (name : Text) (b : Backend) (htrue : '&' ∉ d.trueText ∧ '\n' ∉ d.trueText)
    (hfalse : '&' ∉ d.falseText ∧ '\n' ∉ d.falseText) :
    ∃ t header body, Table.build s ⟨name, some b⟩ = .ok t ∧
      let n := s.atoms.length
      let shown := if d.showSubExpressions then s.subExpressions else []
      let k := n + shown.length + 1
      let rows := if d.onlyShowTrue then t.rows.filter fun row => row.outcome.value else t.rows
      let lines := ["\\[".toList, Table.arrayPreamble n k, header] ++ body ++
        ["\\end\x7barray\x7d".toList, "\\]".toList]
      (t.latex d = Text.unlines lines ∧ lines.length = 5 + rows.length ∧
        ∀ line ∈ lines, '\n' ∉ line) ∧
      (Text.cutCells header = s.atoms ++ shown.map Formula.latex ++
          [s.root.latex ++ " \\\\ \\hline".toList] ∧
        (Text.cutCells header).length = k) ∧
      List.Forall₂ (fun row line =>
        Text.cutCells line =
          (row.assignment.entries.map Prod.snd ++
            if d.showSubExpressions then row.outcome.marked else []).map d.format ++
              [d.format row.outcome.value ++ " \\\\".toList] ∧
        (Text.cutCells line).length = k) rows body ∧
      (∀ kind, kind = Kind.negation ∨ (∃ op, kind = .connective op) → ∀ v ∈ kind.spellings none [],
        (∃ c ∈ v, c ≠ '\\' ∧ Text.isWordChar c = false) →
          ∀ title ∈ s.atoms ++ shown.map Formula.latex ++ [s.root.latex], ¬ v <:+: title) ∧
      ∀ o' text' s', parse o' text' = .ok s' → s.root.Alike s'.root →
        List.Forall₂ Formula.Alike s.subExpressions s'.subExpressions → ∀ name' b',
          ∃ t', Table.build s' ⟨name', some b'⟩ = .ok t' ∧ t'.latex d = t.latex d := by
  have htypeset := all_isTypeset_titles h d
  have htitles : ∀ c, Text.isTypeset c = false →
      ∀ title ∈ (Table.byMeaning s).latexTitles d, c ∉ title := by
    intro c hc title htitle
    rw [Table.latexTitles_eq] at htitle
    exact Text.notMem_of_all_isTypeset (htypeset title htitle) hc
  have hheader := Table.cutCells_headerLine (htitles '&' (by decide))
  have hrow := Table.cutCells_rowLine htrue.1 hfalse.1
  refine ⟨Table.byMeaning s, Table.headerLine (Table.byMeaning s) d,
    ((Table.byMeaning s).visibleRows d).map (Table.rowLine d),
    build_of_compiled (.parse h) hcount name b, ?_⟩
  intro n shown k rows lines
  have hlines : lines = Table.arrayLines (Table.byMeaning s) d := rfl
  rw [hlines]
  refine ⟨⟨Table.latex_eq _ d, Table.length_arrayLines _ d,
    Table.notMem_arrayLines (htitles '\n' (by decide)) htrue.2 hfalse.2⟩, ⟨hheader, ?_⟩, ?_, ?_, ?_⟩
  · rw [hheader, List.length_append, List.length_append, List.length_map]
    rfl
  · refine List.forall₂_map_right_iff.mpr (List.forall₂_same.mpr fun row hmem => ⟨hrow row, ?_⟩)
    have hlength := Table.length_cells (.parse h) hmem
    rw [Table.cells_eq, List.length_append] at hlength
    rw [hrow, List.length_append, List.length_map]
    exact hlength
  · exact fun kind hkind v hv hsign title htitle =>
      Formula.not_infix_of_isTypeset hkind hv hsign (htypeset title htitle)
  · intro o' text' s' h' hroot hmarked name' b'
    have hatoms := atoms_eq_of_alike h h' hroot
    exact ⟨Table.byMeaning s', build_of_compiled (.parse h') (hatoms ▸ hcount) name' b',
      (Table.latex_eq_of_alike hatoms hroot hmarked).symm⟩

theorem latex_array_filtered_and_respelled :
    let d : DisplayOptions := ⟨"T ".toList, [], true, true⟩
    let root := "((p \\land q) \\uparrow \\lnot p)".toList
    (('&' ∉ d.trueText ∧ '\n' ∉ d.trueText) ∧ '&' ∉ d.falseText ∧ '\n' ∉ d.falseText) ∧
    ∃ s s' t t' header lines, parse {} "*(p&&q)|~p".toList = .ok s ∧
      parse {} "*(p∧q) nand not p".toList = .ok s' ∧
      Table.build s ⟨[], some .rowByRow⟩ = .ok t ∧
      Table.build s' ⟨[], some .columnByColumn⟩ = .ok t' ∧
      t.latex d = Text.unlines lines ∧ t'.latex d = Text.unlines lines ∧ lines[2]? = some header ∧
      Text.cutCells header =
        [['p'], ['q'], "(p \\land q)".toList, root ++ " \\\\ \\hline".toList] ∧
      ¬ "&&".toList <:+: root := by
  intro d root
  let p : Formula := .var ['p'] ['p']
  let q : Formula := .var ['q'] ['q']
  let group : Formula := .binary .and "&&".toList p q
  let group' : Formula := .binary .and ['∧'] p q
  let s : Statement := ⟨"*(p&&q)|~p".toList, .binary .nand ['|'] group (.not ['~'] p),
    [['p'], ['q']], [group]⟩
  let s' : Statement := ⟨"*(p∧q) nand not p".toList,
    .binary .nand "nand".toList group' (.not "not".toList p), [['p'], ['q']], [group']⟩
  have hs : parse {} "*(p&&q)|~p".toList = .ok s := by decide +kernel
  have hs' : parse {} "*(p∧q) nand not p".toList = .ok s' := by decide +kernel
  have htexts : ('&' ∉ d.trueText ∧ '\n' ∉ d.trueText) ∧
      '&' ∉ d.falseText ∧ '\n' ∉ d.falseText := by
    decide
  have hgroup : group.Alike group' := .binary (.var _ _) (.var _ _)
  obtain ⟨t, header, body, hbuild, ⟨hlines, -, -⟩, ⟨hheader, -⟩, -, hsigns, hspelled⟩ :=
    latex_array hs (by decide) [] .rowByRow htexts.1 htexts.2
  obtain ⟨t', hbuild', hsame⟩ := hspelled {} _ s' hs' (.binary hgroup (.not (.var _ _)))
    (.cons hgroup .nil) [] .columnByColumn
  refine ⟨htexts, s, s', t, t', header, _, hs, hs', hbuild, hbuild', hlines, hsame.trans hlines,
    rfl, hheader, hsigns (.connective .and) (.inr ⟨.and, rfl⟩) _ (by decide) ⟨'&', by decide⟩ root ?_⟩
  exact List.mem_append_right _ (List.mem_singleton_self _)

end Statement

end Sentential
