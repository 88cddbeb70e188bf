import Sentential.Table.Plain
import Sentential.Table.Latex
import Sentential.Proofs.Printing
import Sentential.Proofs.Rows

/-!
# The columns that are shown

Titles and cells of a table are put together apart from each other: the titles from the statement,
the cells from its rows. Both run through the variables, then through the marked sub-expressions if
these are shown, and end with the statement itself, so that a row has one cell for every title. For
a statement that comes from a text all of this exists, since everything in it has a printed form.
-/

namespace Sentential

namespace Statement

theorem exists_print_of_compiled {s : Statement} (h : s.Compiled) {f : Formula}
    (hf : f ∈ s.root :: s.subExpressions) : ∃ printed, f.print? = some printed := by
  induction h with
  | parse h => exact exists_print h hf
  | withVariables h names ih => exact ih hf

theorem build_of_compiled {s : Statement} (h : s.Compiled)
    (hcount : s.atoms.length ≤ Table.maxVariables) (name : Text) (b : Backend) :
    Table.build s ⟨name, some b⟩ = .ok (.byMeaning s) :=
  Table.build_of_declared hcount (fun _ => mem_atoms_of_used h) name b

end Statement

namespace Table

variable {s s' : Statement} {d : DisplayOptions}

/-- The formulas that have a column of their own between the variables and the statement. -/
def shownFormulas (d : DisplayOptions) (s : Statement) : List Formula :=
  if d.showSubExpressions then s.subExpressions else []

theorem mem_of_mem_shownFormulas {f : Formula} (h : f ∈ shownFormulas d s) :
    f ∈ s.subExpressions := by
  unfold shownFormulas at h
  split at h
  · exact h
  · cases h

theorem titles?_eq (t : Table) (d : DisplayOptions) :
    t.titles? d = (Formula.printList? (shownFormulas d t.statement)).map fun marks =>
      t.statement.atoms ++ marks ++ [t.statement.text] := by
  rw [titles?, columns?, shownFormulas]
  split
  · rfl
  · rw [Formula.printList?, Option.map_some, List.append_nil]

theorem exists_titles (h : s.Compiled) (d : DisplayOptions) :
    ∃ marks, List.Forall₂ (fun f text => f.print? = some text) (shownFormulas d s) marks ∧
      (byMeaning s).titles? d = some (s.atoms ++ marks ++ [s.text]) := by
  obtain ⟨marks, hmarks⟩ := Formula.exists_printList fun f hf =>
    Statement.exists_print_of_compiled h
      (List.mem_cons_of_mem _ (@mem_of_mem_shownFormulas s d f hf))
  refine ⟨marks, Formula.forall₂_of_printList hmarks, ?_⟩
  rw [titles?_eq]
  exact congrArg (Option.map _) hmarks

theorem latexTitles_eq (t : Table) (d : DisplayOptions) :
    t.latexTitles d =
      t.statement.atoms ++ (shownFormulas d t.statement).map Formula.latex ++
        [t.statement.root.latex] := by
  rw [latexTitles, shownFormulas]
  split <;> rfl

/-- How many columns are shown. -/
def columnCount (d : DisplayOptions) (s : Statement) : Nat :=
  s.atoms.length + (shownFormulas d s).length + 1

theorem cells_eq (d : DisplayOptions) (row : Row) :
    cells d row =
      row.assignment.entries.map Prod.snd ++
        (if d.showSubExpressions then row.outcome.marked else []) ++ [row.outcome.value] := by
  rw [cells, List.append_assoc]
  split <;> rfl

theorem cells_rowUnder (s : Statement) (d : DisplayOptions) (v : Text → Bool) :
    cells d (rowUnder s v) =
      s.atoms.map v ++ (shownFormulas d s).map (Formula.meaning v) ++ [s.root.meaning v] := by
  have hvalues : (rowUnder s v).assignment.entries.map Prod.snd = s.atoms.map v := by
    rw [rowUnder, Assignment.entries_ofTruth, List.map_map]
    rfl
  rw [cells_eq, hvalues, shownFormulas]
  split <;> rfl

theorem mem_of_mem_visibleRows {t : Table} {row : Row} (h : row ∈ t.visibleRows d) :
    row ∈ t.rows := by
  unfold visibleRows at h
  split at h
  · exact (List.mem_filter.mp h).1
  · exact h

/-- Every row has a cell for each column. -/
theorem length_cells (h : s.Compiled) {row : Row} (hrow : row ∈ (byMeaning s).visibleRows d) :
    (cells d row).length = columnCount d s := by
  have hused : ∀ x ∈ s.used, x ∈ s.atoms := fun x => Statement.mem_atoms_of_used h
  obtain ⟨v, rfl⟩ := (mem_byMeaning_iff (Statement.ascending_atoms h).nodup hused).mp
    (mem_of_mem_visibleRows hrow)
  rw [cells_rowUnder, columnCount]
  simp [Nat.add_assoc]

/-- The cells that are shown depend on the variables and on what the formulas mean. -/
theorem map_cells_eq (hatoms : s.atoms = s'.atoms) (hmeaning : ∀ v, s.meaning v = s'.meaning v) :
    ((byMeaning s).visibleRows d).map (cells d) = ((byMeaning s').visibleRows d).map (cells d) := by
  unfold visibleRows byMeaning
  rw [← hatoms]
  split
  · rw [List.filter_map, List.filter_map, List.map_map, List.map_map]
    simp only [Function.comp_def, ← hmeaning]
    rfl
  · rw [List.map_map, List.map_map]
    simp only [Function.comp_def, ← hmeaning]
    rfl

theorem notMem_map_format {c : Char} (htrue : c ∉ d.trueText) (hfalse : c ∉ d.falseText)
    (bits : List Bool) : ∀ t ∈ bits.map d.format, c ∉ t := by
  intro t ht
  obtain ⟨bit, -, rfl⟩ := List.mem_map.mp ht
  cases bit with
  | true => exact htrue
  | false => exact hfalse

end Table

end Sentential
