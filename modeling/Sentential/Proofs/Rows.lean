import Sentential.Proofs.Variables

/-!
# Every assignment has one row

The rows of a table are numbered by their values, read as binary digits with zero for true and the
first variable highest. As many digits as there are variables write every number below the count of
rows once, so every way to make the variables true or false is the row with one index.

In such a row stands what the statement means there. An assignment, wherever it comes from, finds
the row with its entries and with it its own outcome, because the statement asks for no variable
that is not among them; and if its entries are not those of the variables it finds nothing. The
all-true assignment with other values for some variables is the assignment of a row too, so its
outcome can be read off the table.
-/

namespace Sentential

/-! ## Rows and truth values

Over names without repetition a row of values and a way to make the names true are the same thing,
and the assignment of a row says nothing else. -/

namespace Column

theorem zip_map_self (names : List Text) (v : Text → Bool) :
    names.zip (names.map v) = names.map fun name => (name, v name) := by
  rw [List.zip, List.zipWith_map_right, List.zipWith_self]

theorem cell?_map (names : List Text) (v : Text → Bool) (x : Text) :
    cell? names (names.map v) x = if x ∈ names then some (v x) else none := by
  rw [cell?, zip_map_self, ← List.map_reverse, Assignment.lookup_map_pair]
  simp only [List.mem_reverse]

theorem truth_map {names : List Text} {v : Text → Bool} {x : Text} (hx : x ∈ names) :
    truth names (names.map v) x = v x := by
  rw [truth, cell?_map, if_pos hx]
  rfl

theorem map_truth {names : List Text} (hnames : names.Nodup) {row : List Bool}
    (h : row.length = names.length) : names.map (truth names row) = row := by
  induction names generalizing row with
  | nil => exact (List.eq_nil_of_length_eq_zero h).symm
  | cons name names ih =>
      cases row with
      | nil => cases h
      | cons b row =>
          obtain ⟨hname, hnames⟩ := List.nodup_cons.mp hnames
          have hrow := Nat.succ.inj h
          have hhead : truth (name :: names) (b :: row) name = b := by
            rw [truth, cell?_cons, cell?_of_not_mem hrow hname, if_pos rfl]
            rfl
          have htail : ∀ x ∈ names, truth (name :: names) (b :: row) x = truth names row x := by
            intro x hx
            have hne : x ≠ name := fun heq => hname (heq ▸ hx)
            rw [truth, cell?_cons, if_neg hne, Option.or_none, truth]
          rw [List.map_cons, hhead, List.map_congr_left htail, ih hnames hrow]

end Column

namespace Assignment

theorem ofRow_eq_ofTruth {names : List Text} (hnames : names.Nodup) {row : List Bool}
    (h : row.length = names.length) (source : Option Text) :
    ofRow names row source = ofTruth names (Column.truth names row) source := by
  rw [ofRow, slotsFor_of_nodup hnames, ofTruth]
  congr 1
  exact List.map_congr_left fun x hx => congrArg (Prod.mk x) (Column.cell?_of_mem h hx)

/-- The entries are the entered names, each with its value. -/
theorem entries_eq_map {a : Assignment} (h : a.declared.Nodup) :
    a.entries = (a.entries.map Prod.fst).map fun x => (x, a.truth x) := by
  have hid : ∀ p ∈ a.entries, (p.1, a.truth p.1) = p := by
    intro p hp
    rw [truth_of_value? ((value?_eq_some_iff h).mpr hp)]
  rw [List.map_map]
  exact ((List.map_congr_left hid).trans (List.map_id _)).symm

theorem knows_of_mem_entries {a : Assignment} (h : a.declared.Nodup) {x : Text}
    (hx : x ∈ a.entries.map Prod.fst) : a.knows x = true := by
  rw [map_fst_entries h] at hx
  exact (List.mem_filter.mp hx).2

theorem knows_ofTruth {names : List Text} {v : Text → Bool} {source : Option Text} {x : Text} :
    (ofTruth names v source).knows x = true ↔ x ∈ names := by
  rw [knows, value?_ofTruth]
  split
  · next hx => exact ⟨fun _ => hx, fun _ => rfl⟩
  · next hx => exact ⟨fun h => Bool.noConfusion h, fun h => absurd h hx⟩

theorem truth_ofTruth {names : List Text} {x : Text} (hx : x ∈ names) (v : Text → Bool)
    (source : Option Text) : (ofTruth names v source).truth x = v x :=
  truth_of_value? ((value?_ofTruth names v source x).trans (if_pos hx))

end Assignment

namespace Statement

theorem meaning_truth_map (s : Statement) (hused : ∀ x ∈ s.used, x ∈ s.atoms) (v : Text → Bool) :
    s.meaning (Column.truth s.atoms (s.atoms.map v)) = s.meaning v :=
  s.meaning_congr fun x hx => Column.truth_map (hused x hx)

end Statement

/-! ## Indices

A number below the count of rows is given by its digits, one for each name, and every choice of
digits is such a number. -/

namespace Table

theorem rowBits_eq_map_iff {names : List Text} {v : Text → Bool} {i : Nat} :
    rowBits names.length i = names.map v ↔
      ∀ j x, names[j]? = some x → i.testBit (names.length - 1 - j) = !v x := by
  constructor
  · intro h j x hx
    obtain ⟨hj, -⟩ := List.getElem?_eq_some_iff.mp hx
    have hcell : (rowBits names.length i)[j]? = (names.map v)[j]? := by rw [h]
    rw [List.getElem?_map, hx, rowBits, List.getElem?_map, List.getElem?_range hj] at hcell
    rw [← Option.some.inj hcell, Bool.not_not]
  · intro h
    refine List.ext_getElem? fun j => ?_
    rw [List.getElem?_map, rowBits, List.getElem?_map]
    cases hx : names[j]? with
    | none => rw [List.getElem?_eq_none (by simpa using hx)]; rfl
    | some x =>
        obtain ⟨hj, -⟩ := List.getElem?_eq_some_iff.mp hx
        rw [List.getElem?_range hj, Option.map_some, h j x hx, Bool.not_not]
        rfl

theorem rowBits_inj {count i k : Nat} (hi : i < 2 ^ count) (hk : k < 2 ^ count)
    (h : rowBits count i = rowBits count k) : i = k := by
  refine Nat.eq_of_testBit_eq fun bit => ?_
  by_cases hbit : bit < count
  · have hj : count - 1 - bit < count := by omega
    have hcell : (rowBits count i)[count - 1 - bit]? = (rowBits count k)[count - 1 - bit]? := by
      rw [h]
    simp only [rowBits, List.getElem?_map, List.getElem?_range hj, Option.map_some] at hcell
    have hback : count - 1 - (count - 1 - bit) = bit := by omega
    rw [hback] at hcell
    exact Bool.not_inj (Option.some.inj hcell)
  · -- neither number has a digit there
    have hle : 2 ^ count ≤ 2 ^ bit := Nat.pow_le_pow_right Nat.two_pos (Nat.le_of_not_lt hbit)
    rw [Nat.testBit_lt_two_pow (Nat.lt_of_lt_of_le hi hle),
      Nat.testBit_lt_two_pow (Nat.lt_of_lt_of_le hk hle)]

theorem exists_index (names : List Text) (v : Text → Bool) :
    ∃ i < 2 ^ names.length, ∀ j x, names[j]? = some x →
      i.testBit (names.length - 1 - j) = !v x := by
  -- the lowest digit belongs to the last name
  let digit : Fin names.length → Bool := fun k => !v (names.getD (names.length - 1 - k) [])
  refine ⟨Nat.ofBits digit, Nat.ofBits_lt_two_pow digit, fun j x hx => ?_⟩
  obtain ⟨hj, -⟩ := List.getElem?_eq_some_iff.mp hx
  have hback : names.length - 1 - (names.length - 1 - j) = j := by omega
  rw [Nat.testBit_ofBits_lt digit _ (by omega)]
  show (!v (names.getD (names.length - 1 - (names.length - 1 - j)) [])) = _
  rw [hback, List.getD_eq_getElem?_getD, hx, Option.getD_some]

theorem mem_allRows_map (names : List Text) (v : Text → Bool) :
    names.map v ∈ allRows names.length := by
  obtain ⟨i, hi, hdigits⟩ := exists_index names v
  exact List.mem_map.mpr ⟨i, List.mem_range.mpr hi, rowBits_eq_map_iff.mpr hdigits⟩

/-! ## The rows of a table -/

/-- The row of a statement where `v` says which of its variables are true. -/
def rowUnder (s : Statement) (v : Text → Bool) : Row :=
  ⟨.ofTruth s.atoms v (some s.text), s.meaning v⟩

variable {s : Statement}

theorem getElem?_byMeaning (hatoms : s.atoms.Nodup) (k : Nat) :
    (byMeaning s).rows[k]? =
      if k < 2 ^ s.atoms.length then
        some (rowUnder s (Column.truth s.atoms (rowBits s.atoms.length k))) else none := by
  rw [byMeaning, allRows, rowCount_eq, List.map_map, List.getElem?_map]
  split
  · next hk =>
      rw [List.getElem?_range hk, Option.map_some, Function.comp_apply,
        Assignment.ofRow_eq_ofTruth hatoms (length_rowBits _ _)]
      rfl
  · next hk =>
      rw [List.getElem?_eq_none (by rw [List.length_range]; exact Nat.le_of_not_lt hk)]
      rfl

theorem mem_byMeaning_iff (hatoms : s.atoms.Nodup) (hused : ∀ x ∈ s.used, x ∈ s.atoms) {row : Row} :
    row ∈ (byMeaning s).rows ↔ ∃ v, row = rowUnder s v := by
  constructor
  · intro hrow
    obtain ⟨k, hk⟩ := List.mem_iff_getElem?.mp hrow
    rw [getElem?_byMeaning hatoms] at hk
    split at hk
    · exact ⟨_, (Option.some.inj hk).symm⟩
    · cases hk
  · rintro ⟨v, rfl⟩
    refine List.mem_map.mpr ⟨s.atoms.map v, mem_allRows_map s.atoms v, ?_⟩
    rw [Assignment.ofRow_eq_ofTruth hatoms (List.length_map _), s.meaning_truth_map hused,
      Assignment.ofTruth_congr fun x hx => Column.truth_map hx, rowUnder]

/-- Of every way to make the variables true or false there is one row, and the digits of its index
say which. -/
theorem exists_row (hatoms : s.atoms.Nodup) (v : Text → Bool) :
    ∃ i < 2 ^ s.atoms.length,
      (∀ j x, s.atoms[j]? = some x →
        (i.testBit (s.atoms.length - 1 - j) = false ↔ v x = true)) ∧
      ∀ k row, (byMeaning s).rows[k]? = some row →
        (row.assignment.entries = (s.atoms.map fun x => (x, v x)) ↔ k = i) := by
  obtain ⟨i, hi, hdigits⟩ := exists_index s.atoms v
  refine ⟨i, hi, fun j x hx => by rw [hdigits j x hx, Bool.not_eq_false'], fun k row hrow => ?_⟩
  rw [getElem?_byMeaning hatoms] at hrow
  split at hrow
  · next hk =>
      cases hrow
      have hbits : ((s.atoms.map fun x =>
          (x, Column.truth s.atoms (rowBits s.atoms.length k) x)) =
            s.atoms.map fun x => (x, v x)) ↔ rowBits s.atoms.length k = s.atoms.map v := by
        conv_rhs => rw [← Column.map_truth hatoms (length_rowBits s.atoms.length k)]
        simp
      rw [rowUnder, Assignment.entries_ofTruth, hbits]
      constructor
      · intro h
        exact rowBits_inj hk hi (h.trans (rowBits_eq_map_iff.mpr hdigits).symm)
      · rintro rfl
        exact rowBits_eq_map_iff.mpr hdigits
  · cases hrow

/-- An assignment finds what the statement means under it, if it enters the variables of the
statement and no others, and nothing otherwise. -/
theorem outcome?_byMeaning (hatoms : s.atoms.Nodup) (hused : ∀ x ∈ s.used, x ∈ s.atoms)
    {a : Assignment} (ha : a.declared.Nodup) :
    (byMeaning s).outcome? a =
      if a.entries.map Prod.fst = s.atoms then some (s.meaning a.truth) else none := by
  rw [outcome?]
  cases hfind : (byMeaning s).rows.reverse.find? fun row => row.assignment.same a with
  | some row =>
      have hsame := List.find?_some hfind
      obtain ⟨v, rfl⟩ := (mem_byMeaning_iff hatoms hused).mp
        (List.mem_reverse.mp (List.mem_of_find?_eq_some hfind))
      have hentries : (s.atoms.map fun x => (x, v x)) = a.entries := by
        rw [← beq_iff_eq.mp hsame, rowUnder, Assignment.entries_ofTruth]
      have hnames : a.entries.map Prod.fst = s.atoms := by
        rw [← hentries, Assignment.map_fst_map_pair]
      have hvalues : ∀ x ∈ s.atoms, v x = a.truth x := by
        intro x hx
        have hmem : (x, v x) ∈ a.entries := hentries ▸ List.mem_map_of_mem hx
        exact (Assignment.truth_of_value? ((Assignment.value?_eq_some_iff ha).mpr hmem)).symm
      rw [if_pos hnames, ← s.meaning_congr fun x hx => hvalues x (hused x hx)]
      rfl
  | none =>
      have hnames : a.entries.map Prod.fst ≠ s.atoms := by
        intro hnames
        have hmem : rowUnder s a.truth ∈ (byMeaning s).rows.reverse :=
          List.mem_reverse.mpr ((mem_byMeaning_iff hatoms hused).mpr ⟨_, rfl⟩)
        refine List.find?_eq_none.mp hfind _ hmem (beq_iff_eq.mpr ?_)
        rw [rowUnder, Assignment.entries_ofTruth, Assignment.entries_eq_map ha, hnames]
      rw [if_neg hnames]
      rfl

end Table

namespace Statement

variable {s : Statement}

theorem overridden_eq (hatoms : s.atoms.Nodup) {settings : Settings}
    (h : ∀ setting ∈ settings, setting.1 ∈ s.atoms) :
    s.overridden settings =
      .ok (.ofTruth s.atoms (fun x => (settings.truth? x).getD true) (some s.text)) := by
  have hslots : s.allTrue.slots = s.atoms.map fun x => (x, some true) :=
    Assignment.slotsFor_of_nodup hatoms _
  have hdeclared : s.allTrue.declared = s.atoms := by
    rw [Assignment.declared, hslots, Assignment.map_fst_map_pair]
  refine Assignment.update_eq_ok_iff.mpr
    ⟨Assignment.undeclared?_eq_none_iff.mpr (by rwa [hdeclared]), ?_⟩
  rw [hslots, List.map_map, Assignment.ofTruth]
  congr 1
  refine List.map_congr_left fun x _ => ?_
  show (x, (settings.truth? x).or (some true)) = (x, some ((settings.truth? x).getD true))
  cases settings.truth? x <;> rfl

/-- The meaning is made up of the values of the statement and its marked sub-expressions. -/
theorem values_of_knows_used {a : Assignment} (h : ∀ x ∈ s.used, a.knows x = true) :
    s.evaluate a = .ok (s.meaning a.truth).value ∧
      List.Forall₂ (fun f c => f.eval a = .ok c) s.subExpressions (s.meaning a.truth).marked := by
  obtain ⟨hroot, hmarked⟩ := List.forall_mem_cons.mp (eval_of_knows_used h)
  exact ⟨hroot, List.forall₂_map_right_iff.mpr (List.forall₂_same.mpr hmarked)⟩

theorem evaluate_ofTruth (hused : ∀ x ∈ s.used, x ∈ s.atoms) (v : Text → Bool)
    (source : Option Text) : s.evaluate (.ofTruth s.atoms v source) = .ok (s.root.meaning v) := by
  have hknows : ∀ x ∈ s.used, (Assignment.ofTruth s.atoms v source).knows x = true :=
    fun x hx => Assignment.knows_ofTruth.mpr (hused x hx)
  rw [(values_of_knows_used hknows).1,
    s.meaning_congr fun x hx => Assignment.truth_ofTruth (hused x hx) v source]
  rfl

/-- The table of a statement that comes from a text has a row for every assignment of its variables,
and one row only, whose index has a zero for each variable that is true. Whatever assignment is
looked up is found if it enters these variables and no others, and what is found are the values that
evaluation gives. What a statement evaluates to with some variables overridden stands in the row of
the overridden assignment. -/
theorem build_enumerates (h : s.Compiled) (hcount : s.atoms.length ≤ Table.maxVariables)
    (name : Text) (b : Backend) :
    ∃ t, Table.build s ⟨name, some b⟩ = .ok t ∧
      t.rows.length = 2 ^ s.atoms.length ∧
      (∀ v : Text → Bool, ∃ i < 2 ^ s.atoms.length,
        (∀ j x, s.atoms[j]? = some x →
          (i.testBit (s.atoms.length - 1 - j) = false ↔ v x = true)) ∧
        ∀ k row, t.rows[k]? = some row →
          (row.assignment.entries = (s.atoms.map fun x => (x, v x)) ↔ k = i)) ∧
      (∀ names source a, Assignment.MadeFor names source a →
        ((t.outcome? a).isSome = true ↔ a.entries.map Prod.fst = s.atoms) ∧
        ∀ o, t.outcome? a = some o → s.evaluate a = .ok o.value ∧
          List.Forall₂ (fun f c => f.eval a = .ok c) s.subExpressions o.marked) ∧
      ∀ settings : Settings, (∀ setting ∈ settings, setting.1 ∈ s.atoms) →
        ∃ row ∈ t.rows, s.overridden settings = .ok row.assignment ∧
          s.evaluateWith settings = .ok row.outcome.value := by
  have hatoms : s.atoms.Nodup := (ascending_atoms h).nodup
  have hused : ∀ x ∈ s.used, x ∈ s.atoms := fun x => mem_atoms_of_used h
  refine ⟨_, Table.build_of_declared hcount hused name b, Table.length_rows_byMeaning s,
    Table.exists_row hatoms, ?_, ?_⟩
  · intro names source a ha
    rw [Table.outcome?_byMeaning hatoms hused (Assignment.nodup_declared ha)]
    split
    · next hnames =>
        have hknows : ∀ x ∈ s.used, a.knows x = true := fun x hx =>
          Assignment.knows_of_mem_entries (Assignment.nodup_declared ha) (hnames ▸ hused x hx)
        refine ⟨by simp [hnames], fun o ho => ?_⟩
        cases ho
        exact values_of_knows_used hknows
    · next hnames => exact ⟨by simp [hnames], fun o ho => nomatch ho⟩
  · intro settings hsettings
    have hover := overridden_eq hatoms hsettings
    refine ⟨Table.rowUnder s fun x => (settings.truth? x).getD true,
      (Table.mem_byMeaning_iff hatoms hused).mpr ⟨_, rfl⟩, hover, ?_⟩
    rw [evaluateWith, hover]
    exact evaluate_ofTruth hused _ _

theorem build_enumerates_widened :
    ∃ s₀ a t o, parse {} "*(q&r)->p".toList = .ok s₀ ∧
      Assignment.make [['p'], ['q'], ['r'], ['z']]
        [(['z'], .whole 0), (['q'], .flag true), (['r'], .text ['x']), (['p'], .absent)] none =
          .ok a ∧
      Table.build (s₀.withVariables [['z']]) ⟨[], some .columnByColumn⟩ = .ok t ∧
      t.rows.length = 16 ∧ t.outcome? a = some o ∧
      (s₀.withVariables [['z']]).evaluate a = .ok o.value ∧
      ∃ row ∈ t.rows,
        (s₀.withVariables [['z']]).evaluateWith [(['p'], .flag false)] = .ok row.outcome.value := by
  let group : Formula := .binary .and ['&'] (.var ['q'] ['q']) (.var ['r'] ['r'])
  let s₀ : Statement := ⟨"*(q&r)->p".toList,
    .binary .implies ['-', '>'] group (.var ['p'] ['p']), [['p'], ['q'], ['r']], [group]⟩
  let a : Assignment := ⟨[(['p'], some false), (['q'], some true), (['r'], some true),
    (['z'], some false)], none⟩
  have hparse : parse {} "*(q&r)->p".toList = .ok s₀ := by decide +kernel
  have hmake : Assignment.make [['p'], ['q'], ['r'], ['z']]
      [(['z'], .whole 0), (['q'], .flag true), (['r'], .text ['x']), (['p'], .absent)] none =
        .ok a := by rfl
  have hcompiled : (s₀.withVariables [['z']]).Compiled := .withVariables (.parse hparse) _
  have hsettings : ∀ setting ∈ [((['p'] : Text), Setting.flag false)],
      setting.1 ∈ (s₀.withVariables [['z']]).atoms :=
    List.forall_mem_singleton.mpr (by decide)
  obtain ⟨t, hbuild, hlength, -, hlookup, hover⟩ :=
    build_enumerates hcompiled (by decide) [] .columnByColumn
  obtain ⟨hfound, hvalues⟩ := hlookup _ _ a (.make hmake)
  obtain ⟨o, ho⟩ := Option.isSome_iff_exists.mp (hfound.mpr (by decide))
  obtain ⟨row, hrow, -, hvalue⟩ := hover [(['p'], .flag false)] hsettings
  exact ⟨s₀, a, t, o, hparse, hmake, hbuild, hlength, ho, (hvalues o ho).1, row, hrow, hvalue⟩

end Statement

end Sentential
