import Mathlib.Data.Finset.Card
import Sentential.Proofs.Rows

/-!
# Tables over more variables

A statement can be brought over more variables, so that its table can be compared with others. New
names take their places among the old ones, before, between and behind them, so the rows of the old
table are spread over the new one and the digits of their indices move apart. What holds the two
tables together is the restriction of an assignment to the old variables. Evaluation asks for no
other variables, so a row of the wide table has the outcome of the row that it restricts to; and
since the wide table has every assignment once, each row is restricted to by as many rows as there
are ways to choose values for the new variables.
-/

namespace Sentential

/-! ## Counting rows

The rows over one more variable are those in which it is true and then those in which it is not. So
with every variable whose value does not matter the rows that agree on the others are twice as
many. -/

namespace Table

theorem rowBits_succ (count i : Nat) :
    rowBits (count + 1) i = (!i.testBit count) :: rowBits count i := by
  rw [rowBits, List.range_succ_eq_map, List.map_cons, List.map_map, rowBits]
  congr 1
  refine List.map_congr_left fun j _ => ?_
  have hbit : count + 1 - 1 - (j + 1) = count - 1 - j := by omega
  rw [Function.comp_apply, hbit]

theorem allRows_succ (count : Nat) :
    allRows (count + 1) =
      (allRows count).map (true :: ·) ++ (allRows count).map (false :: ·) := by
  have hrange : List.range (rowCount (count + 1)) =
      List.range (2 ^ count) ++ (List.range (2 ^ count)).map (2 ^ count + ·) := by
    rw [rowCount_eq, Nat.pow_succ, Nat.mul_two, List.range_add]
  rw [allRows, hrange, List.map_append, allRows, rowCount_eq, List.map_map, List.map_map,
    List.map_map]
  congr 1
  · refine List.map_congr_left fun i hi => ?_
    rw [rowBits_succ, Nat.testBit_lt_two_pow (List.mem_range.mp hi)]
    rfl
  · refine List.map_congr_left fun i hi => ?_
    have hlow : rowBits count (2 ^ count + i) = rowBits count i :=
      List.map_congr_left fun j hj => by
        have hj := List.mem_range.mp hj
        rw [Nat.testBit_two_pow_add_gt (by omega)]
    rw [Function.comp_apply, rowBits_succ, hlow, Nat.testBit_two_pow_add_eq,
      Nat.testBit_lt_two_pow (List.mem_range.mp hi)]
    rfl

/-- Rows that give certain values to some of the variables: one for every choice of values for the
others. -/
theorem countP_allRows (keep v : Text → Bool) (names : List Text) :
    (allRows names.length).countP (fun row =>
      (names.zip row).filter (fun cell => keep cell.1) ==
        (names.filter keep).map fun x => (x, v x)) =
      2 ^ (names.filter fun x => !keep x).length := by
  induction names with
  | nil => rfl
  | cons name names ih =>
      rw [List.length_cons, allRows_succ, List.countP_append, List.countP_map, List.countP_map]
      cases hkeep : keep name with
      | true =>
          -- the value of the name picks the one half of the rows
          cases hv : v name <;> simp [Function.comp_def, hkeep, hv, ih]
      | false =>
          simp only [Function.comp_def, List.zip_cons_cons, List.filter_cons, hkeep]
          simp [ih, Nat.pow_succ, Nat.mul_two]

end Table

/-! ## Restriction -/

namespace Assignment

/-- The assignment as far as it concerns some names. -/
def restrictTo (a : Assignment) (names : List Text) : Assignment :=
  { a with slots := a.slots.filter fun slot => names.contains slot.1 }

theorem restrictTo_ofTruth (names kept : List Text) (v : Text → Bool) (source : Option Text) :
    (ofTruth names v source).restrictTo kept = ofTruth (names.filter kept.contains) v source := by
  rw [restrictTo, ofTruth, List.filter_map]
  rfl

theorem entries_restrictTo_ofRow {names : List Text} (hnames : names.Nodup) {row : List Bool}
    (h : row.length = names.length) (source : Option Text) (kept : List Text) :
    ((ofRow names row source).restrictTo kept).entries =
      (names.zip row).filter fun cell => kept.contains cell.1 := by
  have hzip : names.zip row = names.map fun x => (x, Column.truth names row x) := by
    rw [← Column.zip_map_self, Column.map_truth hnames h]
  rw [ofRow_eq_ofTruth hnames h, restrictTo_ofTruth, entries_ofTruth, hzip, List.filter_map]
  rfl

end Assignment

namespace Table

theorem countP_byMeaning {s : Statement} (hatoms : s.atoms.Nodup) (kept : List Text)
    (v : Text → Bool) :
    (byMeaning s).rows.countP (fun row =>
      (row.assignment.restrictTo kept).entries ==
        (s.atoms.filter kept.contains).map fun x => (x, v x)) =
      2 ^ (s.atoms.filter fun x => !kept.contains x).length := by
  rw [byMeaning, List.countP_map, ← countP_allRows kept.contains v]
  refine List.countP_congr fun row hrow => ?_
  rw [Function.comp_apply,
    Assignment.entries_restrictTo_ofRow hatoms (length_of_mem_allRows hrow)]

/-- One row and no other has the assignment in which the names have the truth values that `v` gives
them. -/
theorem exists_filter_same {s : Statement} (hatoms : s.atoms.Nodup)
    (hused : ∀ x ∈ s.used, x ∈ s.atoms) (v : Text → Bool) (source : Option Text) :
    ∃ row, (byMeaning s).rows.filter (fun row =>
      row.assignment.same (.ofTruth s.atoms v source)) = [row] ∧ row.outcome = s.meaning v := by
  have hall : s.atoms.filter s.atoms.contains = s.atoms :=
    List.filter_eq_self.mpr fun x hx => List.contains_iff_mem.mpr hx
  have hnone : (s.atoms.filter fun x => !s.atoms.contains x) = [] :=
    List.filter_eq_nil_iff.mpr fun x hx => by simp [hx]
  have hcount : ((byMeaning s).rows.filter fun row =>
      row.assignment.same (.ofTruth s.atoms v source)).length = 1 := by
    have hone := countP_byMeaning hatoms s.atoms v
    rw [hall, hnone, List.length_nil, Nat.pow_zero] at hone
    rw [← List.countP_eq_length_filter, ← hone]
    refine List.countP_congr fun row hrow => ?_
    obtain ⟨w, rfl⟩ := (mem_byMeaning_iff hatoms hused).mp hrow
    rw [rowUnder, Assignment.restrictTo_ofTruth, hall, Assignment.same,
      Assignment.entries_ofTruth s.atoms v]
  obtain ⟨row, hfilter⟩ := List.length_eq_one_iff.mp hcount
  have hmem : row ∈ (byMeaning s).rows.filter fun row =>
      row.assignment.same (.ofTruth s.atoms v source) := hfilter ▸ List.mem_singleton_self row
  obtain ⟨hrow, hsame⟩ := List.mem_filter.mp hmem
  obtain ⟨w, rfl⟩ := (mem_byMeaning_iff hatoms hused).mp hrow
  rw [rowUnder, Assignment.same, beq_iff_eq, Assignment.entries_ofTruth, Assignment.entries_ofTruth,
    List.map_inj_left] at hsame
  exact ⟨_, hfilter, s.meaning_congr fun x hx => congrArg Prod.snd (hsame x (hused x hx))⟩

end Table

/-! ## Wider statements -/

namespace Statement

variable {s : Statement} {names : List Text}

theorem filter_atoms_withVariables (h : s.Compiled) (names : List Text) :
    (s.withVariables names).atoms.filter s.atoms.contains = s.atoms := by
  refine ((ascending_atoms (.withVariables h names)).filter _).eq_of_mem_iff (ascending_atoms h) ?_
  intro x
  rw [List.mem_filter, List.contains_iff_mem, mem_atoms_withVariables]
  exact ⟨And.right, fun hx => ⟨.inl hx, hx⟩⟩

theorem length_atoms_le_withVariables (h : s.Compiled) (names : List Text) :
    s.atoms.length ≤ (s.withVariables names).atoms.length :=
  (congrArg List.length (filter_atoms_withVariables h names)).ge.trans (List.length_filter_le _ _)

theorem length_filter_new (s : Statement) (names : List Text) :
    ((s.withVariables names).atoms.filter fun x => !s.atoms.contains x).length =
      (names.toFinset \ s.atoms.toFinset).card := by
  have hnodup := (Text.nodup_sortedSet (s.atoms ++ names)).filter fun x => !s.atoms.contains x
  rw [withVariables, ← List.toFinset_card_of_nodup hnodup]
  congr 1
  ext x
  simp only [List.mem_toFinset, List.mem_filter, Text.mem_sortedSet, List.mem_append,
    Finset.mem_sdiff, Bool.not_eq_true', List.contains_eq_mem, decide_eq_false_iff_not]
  tauto

theorem withVariables_withVariables (s : Statement) (as bs : List Text) :
    (s.withVariables as).withVariables bs = s.withVariables (as ++ bs) := by
  have hatoms : Text.sortedSet (Text.sortedSet (s.atoms ++ as) ++ bs) =
      Text.sortedSet (s.atoms ++ (as ++ bs)) :=
    Text.sortedSet_congr fun x => by
      simp only [List.mem_append, Text.mem_sortedSet, or_assoc]
  simp only [withVariables, hatoms]

theorem withVariables_congr (s : Statement) {as bs : List Text} (h : ∀ x, x ∈ as ↔ x ∈ bs) :
    s.withVariables as = s.withVariables bs := by
  have hatoms : Text.sortedSet (s.atoms ++ as) = Text.sortedSet (s.atoms ++ bs) :=
    Text.sortedSet_congr fun x => by rw [List.mem_append, List.mem_append, h]
  rw [withVariables, withVariables, hatoms]

/-- A statement that comes from a text keeps its table when it is brought over more variables, but
for repetition. Both tables have all their rows. Each row of the wide table is restricted to one row
of the other, and has its outcome; and each row of the other is what as many rows of the wide table
are restricted to as there are ways to choose values for the new names. To add names and then other
names is to add all of them at once, in any order. -/
theorem build_withVariables (h : s.Compiled)
    (hcount : (s.withVariables names).atoms.length ≤ Table.maxVariables)
    (name name' : Text) (b b' : Backend) :
    (∃ t u, Table.build s ⟨name, some b⟩ = .ok t ∧
      Table.build (s.withVariables names) ⟨name', some b'⟩ = .ok u ∧
      (t.rows.length = 2 ^ s.atoms.length ∧
        u.rows.length = 2 ^ (s.withVariables names).atoms.length) ∧
      (∀ wide ∈ u.rows, ∃ row,
        t.rows.filter (fun row => row.assignment.same (wide.assignment.restrictTo s.atoms)) =
          [row] ∧ row.outcome = wide.outcome) ∧
      ∀ row ∈ t.rows,
        (u.rows.filter fun wide =>
          row.assignment.same (wide.assignment.restrictTo s.atoms)).length =
            2 ^ (names.toFinset \ s.atoms.toFinset).card) ∧
    ∀ as bs : List Text, (s.withVariables as).withVariables bs = s.withVariables (as ++ bs) ∧
      ∀ cs, cs.Perm (as ++ bs) → s.withVariables cs = s.withVariables (as ++ bs) := by
  have hwide : (s.withVariables names).Compiled := .withVariables h names
  have hatoms : s.atoms.Nodup := (ascending_atoms h).nodup
  have hwatoms : (s.withVariables names).atoms.Nodup := (ascending_atoms hwide).nodup
  have hused : ∀ x ∈ s.used, x ∈ s.atoms := fun x => mem_atoms_of_used h
  have hwused : ∀ x ∈ (s.withVariables names).used, x ∈ (s.withVariables names).atoms :=
    fun x => mem_atoms_of_used hwide
  have hfilter := filter_atoms_withVariables h names
  refine ⟨⟨_, _,
    Table.build_of_declared ((length_atoms_le_withVariables h names).trans hcount) hused name b,
    Table.build_of_declared hcount hwused name' b',
    ⟨Table.length_rows_byMeaning _, Table.length_rows_byMeaning _⟩, ?_, ?_⟩, ?_⟩
  · intro wide hmem
    obtain ⟨v, rfl⟩ := (Table.mem_byMeaning_iff hwatoms hwused).mp hmem
    rw [Table.rowUnder, Assignment.restrictTo_ofTruth, hfilter]
    exact Table.exists_filter_same hatoms hused v _
  · intro row hmem
    obtain ⟨v, rfl⟩ := (Table.mem_byMeaning_iff hatoms hused).mp hmem
    rw [← length_filter_new, ← Table.countP_byMeaning hwatoms s.atoms v, hfilter,
      ← List.countP_eq_length_filter]
    refine List.countP_congr fun wide _ => ?_
    rw [Table.rowUnder, Assignment.same, Assignment.entries_ofTruth, beq_iff_eq, beq_iff_eq]
    exact eq_comm
  · intro as bs
    exact ⟨s.withVariables_withVariables as bs,
      fun cs hcs => s.withVariables_congr fun x => hcs.mem_iff⟩

theorem build_withVariables_between :
    ∃ s t u, parse {} "*(q&r)->p".toList = .ok s ∧
      Table.build s ⟨[], some .rowByRow⟩ = .ok t ∧
      Table.build (s.withVariables [['p', 'a'], ['q'], ['a'], ['p', 'a']])
        ⟨[], some .columnByColumn⟩ = .ok u ∧
      t.rows.length = 8 ∧ u.rows.length = 32 ∧
      (∀ wide ∈ u.rows, ∃ row ∈ t.rows, row.outcome = wide.outcome) ∧
      (∀ row ∈ t.rows, (u.rows.filter fun wide =>
        row.assignment.same (wide.assignment.restrictTo s.atoms)).length = 4) ∧
      (s.withVariables [['a']]).withVariables [['p', 'a']] =
        s.withVariables [['p', 'a'], ['a']] := by
  let group : Formula := .binary .and ['&'] (.var ['q'] ['q']) (.var ['r'] ['r'])
  let s : Statement := ⟨"*(q&r)->p".toList,
    .binary .implies ['-', '>'] group (.var ['p'] ['p']), [['p'], ['q'], ['r']], [group]⟩
  let names : List Text := [['p', 'a'], ['q'], ['a'], ['p', 'a']]
  have hparse : parse {} "*(q&r)->p".toList = .ok s := by decide +kernel
  have hcount : (s.withVariables names).atoms.length ≤ Table.maxVariables := by decide
  obtain ⟨⟨t, u, ht, hu, ⟨hlength, hwlength⟩, hwide, hrow⟩, hnames⟩ :=
    build_withVariables (.parse hparse) hcount [] [] .rowByRow .columnByColumn
  obtain ⟨hboth, horder⟩ := hnames [['a']] [['p', 'a']]
  have hnew : (names.toFinset \ s.atoms.toFinset).card = 2 := by decide
  refine ⟨s, t, u, hparse, ht, hu, hlength, hwlength, fun wide hmem => ?_, fun row hmem => ?_,
    hboth.trans (horder _ (.swap _ _ [])).symm⟩
  · obtain ⟨row, hfilter, houtcome⟩ := hwide wide hmem
    exact ⟨row, (List.mem_filter.mp (hfilter ▸ List.mem_singleton_self row)).1, houtcome⟩
  · rw [hrow row hmem, hnew]
    rfl

end Statement

end Sentential
