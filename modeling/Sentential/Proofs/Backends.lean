import Mathlib.Algebra.Group.Nat.Defs
import Sentential.Table.Basic
import Sentential.Proofs.Entries
import Sentential.Proofs.Meaning

/-!
# Both backends compute the meaning

Row by row, a name is looked up in an assignment that was made from the row; column by column, its
place among the names is looked up once, and the value is taken from that place in every row. Where
names are repeated both take the last place, and both know the names that occur in the list. This
is all in which the backends could differ: a connective of columns is the connective row by row, and
both ask for the names of the sub-expressions before those of the statement.

So there is one table, `Table.byMeaning`, that both compute, and one list of names, in one order, of
which the first that is not declared stops both. The two failures differ only in what they say about
the statement: the rows know its text and the columns do not.
-/

namespace Sentential

namespace Column

/-! ## The value that a row gives to a name

A row that is as long as the list of names has a value for just the names in the list, and it is the
value in the last place of the name. Assignments made from rows know and say the same. -/

/-- The value that a row of values for `names` gives to a name: the last one, if the name is
repeated. -/
def cell? (names : List Text) (row : List Bool) (name : Text) : Option Bool :=
  (names.zip row).reverse.lookup name

/-- The names that a row makes true. -/
def truth (names : List Text) (row : List Bool) (name : Text) : Bool :=
  (cell? names row name).getD false

theorem cell?_cons (name : Text) (names : List Text) (b : Bool) (row : List Bool) (x : Text) :
    cell? (name :: names) (b :: row) x =
      (cell? names row x).or (if x = name then some b else none) := by
  rw [cell?, List.zip_cons_cons, List.reverse_cons, List.lookup_append, ← cell?]
  by_cases hx : x = name
  · rw [hx, List.lookup_cons_self, if_pos rfl]
  · rw [Assignment.lookup_cons_of_ne hx, if_neg hx]
    rfl

theorem cell?_eq_place? {names : List Text} {row : List Bool} (h : row.length = names.length)
    (x : Text) : cell? names row x = (place? x names).map fun i => row.getD i false := by
  induction names generalizing row with
  | nil => rfl
  | cons name names ih =>
      cases row with
      | nil => cases h
      | cons b row =>
          rw [cell?_cons, ih (Nat.succ.inj h), place?]
          cases place? x names with
          | some i => rfl
          | none =>
              by_cases hx : x = name
              · simp [hx]
              · simp [hx, Ne.symm hx]

theorem isSome_place? (x : Text) (names : List Text) :
    (place? x names).isSome = names.contains x := by
  induction names with
  | nil => rfl
  | cons name names ih =>
      rw [place?, List.contains_cons, ← ih]
      cases place? x names with
      | some i => simp
      | none =>
          by_cases hx : name = x
          · simp [hx]
          · simp [hx, Ne.symm hx]

theorem isSome_cell? {names : List Text} {row : List Bool} (h : row.length = names.length)
    (x : Text) : (cell? names row x).isSome = names.contains x := by
  rw [cell?_eq_place? h, Option.isSome_map, isSome_place?]

theorem cell?_of_mem {names : List Text} {row : List Bool} (h : row.length = names.length)
    {x : Text} (hx : x ∈ names) : cell? names row x = some (truth names row x) := by
  have hcell := isSome_cell? h x
  rw [List.contains_iff_mem.mpr hx] at hcell
  obtain ⟨b, hb⟩ := Option.isSome_iff_exists.mp hcell
  rw [truth, hb, Option.getD_some]

theorem cell?_of_not_mem {names : List Text} {row : List Bool} (h : row.length = names.length)
    {x : Text} (hx : x ∉ names) : cell? names row x = none := by
  have hcell := isSome_cell? h x
  rw [List.contains_eq_mem, decide_eq_false hx] at hcell
  exact Option.isNone_iff_eq_none.mp (Option.isSome_eq_false_iff.mp hcell)

end Column

namespace Assignment

variable {names : List Text} {row : List Bool} {source : Option Text}

theorem value?_ofRow (h : row.length = names.length) (x : Text) :
    (ofRow names row source).value? x = Column.cell? names row x := by
  rw [ofRow, value?_slotsFor]
  split
  · rfl
  · next hx => exact (Column.cell?_of_not_mem h hx).symm

theorem knows_ofRow (h : row.length = names.length) :
    (ofRow names row source).knows = names.contains := by
  funext x
  rw [knows, value?_ofRow h, Column.isSome_cell? h]

theorem truth_ofRow (h : row.length = names.length) :
    (ofRow names row source).truth = Column.truth names row := by
  funext x
  rw [truth, value?_ofRow h]
  rfl

end Assignment

/-! ## Columns

The columns of the operands hold a value for every row, and a connective puts the two of each row
together. So by induction over the formula its column holds its meaning in every row, and it asks
for its names in the order of evaluation. -/

namespace Column

variable {names : List Text} {rows : List (List Bool)}

theorem combine_map {α : Type} (op : Connective) (p q : α → Bool) (rows : List α) :
    combine op (rows.map p) (rows.map q) = rows.map fun row => op.apply (p row) (q row) := by
  cases op <;> simp [combine, Connective.apply, List.zipWith_map, Bool.xor]

theorem ofFormula_not (lexeme : Text) (f : Formula) :
    ofFormula names rows (.not lexeme f) = (ofFormula names rows f).map (List.map (!·)) := by
  rw [ofFormula]
  cases ofFormula names rows f <;> rfl

theorem ofFormula_binary (op : Connective) (lexeme : Text) (f g : Formula) :
    ofFormula names rows (.binary op lexeme f g) =
      (ofFormula names rows f).bind fun l => (ofFormula names rows g).map (combine op l) := by
  rw [ofFormula]
  cases ofFormula names rows f with
  | error u => rfl
  | ok l => cases ofFormula names rows g <;> rfl

theorem ofFormula_eq (hrows : ∀ row ∈ rows, row.length = names.length) (f : Formula) :
    ofFormula names rows f =
      whenKnown names.contains none f.names
        (rows.map fun row => f.meaning (truth names row)) := by
  induction f with
  | literal lexeme => rfl
  | var lexeme name =>
      rw [ofFormula, Formula.names, whenKnown, List.find?_singleton, ← isSome_place?]
      cases hplace : place? name names with
      | none => rfl
      | some i =>
          refine congrArg Except.ok (List.map_congr_left fun row hrow => ?_)
          rw [Formula.meaning, truth, cell?_eq_place? (hrows row hrow), hplace]
          rfl
  | not lexeme f ih =>
      rw [ofFormula_not, ih, whenKnown_map, List.map_map]
      rfl
  | binary op lexeme f g ihf ihg =>
      rw [ofFormula_binary, ihf, ihg, whenKnown_bind, combine_map]
      rfl

theorem ofList_cons (f : Formula) (fs : List Formula) :
    ofList names rows (f :: fs) =
      (ofFormula names rows f).bind fun c => (ofList names rows fs).map (c :: ·) := by
  rw [ofList]
  cases ofFormula names rows f with
  | error u => rfl
  | ok c => cases ofList names rows fs <;> rfl

theorem ofList_eq (hrows : ∀ row ∈ rows, row.length = names.length) (fs : List Formula) :
    ofList names rows fs =
      whenKnown names.contains none (fs.flatMap Formula.names)
        (fs.map fun f => rows.map fun row => f.meaning (truth names row)) := by
  induction fs with
  | nil => rfl
  | cons f fs ih =>
      rw [ofList_cons, ofFormula_eq hrows, ih, whenKnown_bind]
      rfl

theorem stack_map {α β : Type} (rows : List α) (fs : List β) (value : β → α → Bool) :
    stack rows.length (fs.map fun f => rows.map (value f)) =
      rows.map fun row => fs.map fun f => value f row := by
  induction fs with
  | nil => exact List.map_const'.symm
  | cons f fs ih =>
      rw [List.map_cons, stack, List.foldr_cons, ← stack, ih, List.zipWith_map, List.zipWith_self]
      rfl

end Column

namespace Statement

theorem columnOutcomes_eq (s : Statement) {rows : List (List Bool)}
    (hrows : ∀ row ∈ rows, row.length = s.atoms.length) :
    s.columnOutcomes rows =
      whenKnown s.atoms.contains none s.used
        (rows.map fun row => s.meaning (Column.truth s.atoms row)) := by
  have hseq : s.columnOutcomes rows =
      (Column.ofList s.atoms rows s.subExpressions).bind fun marked =>
        (Column.ofFormula s.atoms rows s.root).map
          ((Column.stack rows.length marked).zipWith Outcome.mk) := by
    rw [columnOutcomes]
    cases Column.ofList s.atoms rows s.subExpressions with
    | error u => rfl
    | ok marked => cases Column.ofFormula s.atoms rows s.root <;> rfl
  rw [hseq, Column.ofList_eq hrows, Column.ofFormula_eq hrows, whenKnown_bind, Column.stack_map,
    List.zipWith_map, List.zipWith_self]
  rfl

end Statement

/-! ## Tables

No table is without rows, so either backend asks for every name in use and stops at the first that
is not declared: one in the first row, the other in the first column that needs it. -/

namespace Table

theorem length_rowBits (count i : Nat) : (rowBits count i).length = count := by
  rw [rowBits, List.length_map, List.length_range]

theorem length_of_mem_allRows {count : Nat} {row : List Bool} (h : row ∈ allRows count) :
    row.length = count := by
  obtain ⟨i, -, rfl⟩ := List.mem_map.mp h
  exact length_rowBits count i

theorem rowCount_eq (count : Nat) : rowCount count = 2 ^ count := rfl

theorem length_allRows (count : Nat) : (allRows count).length = 2 ^ count := by
  rw [allRows, List.length_map, List.length_range, rowCount_eq]

theorem allRows_ne_nil (count : Nat) : allRows count ≠ [] :=
  List.ne_nil_of_length_pos (by rw [length_allRows]; exact Nat.two_pow_pos count)

/-- The table of a statement as its meaning has it: in every row the assignment of the row, and what
the statement means under it. -/
def byMeaning (s : Statement) : Table :=
  ⟨s, (allRows s.atoms.length).map fun row =>
    ⟨.ofRow s.atoms row (some s.text), s.meaning (Column.truth s.atoms row)⟩⟩

theorem length_rows_byMeaning (s : Statement) :
    (byMeaning s).rows.length = 2 ^ s.atoms.length := by
  rw [byMeaning, List.length_map, length_allRows]

/-- What the failures of a backend say about the statement. -/
def sourceOf (s : Statement) : Backend → Option Text
  | .rowByRow => some s.text
  | .columnByColumn => none

theorem outcomes_eq (s : Statement) (b : Backend) :
    outcomes s b =
      whenKnown s.atoms.contains (sourceOf s b) s.used
        ((allRows s.atoms.length).map fun row => s.meaning (Column.truth s.atoms row)) := by
  cases b with
  | columnByColumn => exact s.columnOutcomes_eq fun row hrow => length_of_mem_allRows hrow
  | rowByRow =>
      have hne : assignments s ≠ [] := fun h => allRows_ne_nil _ (List.map_eq_nil_iff.mp h)
      have hknows : ∀ a ∈ assignments s, a.knows = s.atoms.contains ∧ a.source = some s.text := by
        intro a ha
        obtain ⟨row, hrow, rfl⟩ := List.mem_map.mp ha
        exact ⟨Assignment.knows_ofRow (length_of_mem_allRows hrow), rfl⟩
      rw [outcomes, s.outcomes_eq hne hknows, assignments, List.map_map]
      refine congrArg _ (List.map_congr_left fun row hrow => ?_)
      rw [Function.comp_apply, Assignment.truth_ofRow (length_of_mem_allRows hrow)]

theorem compute_eq (s : Statement) (b : Backend) :
    compute s b = whenKnown s.atoms.contains (sourceOf s b) s.used (byMeaning s) := by
  have hmap : compute s b =
      (outcomes s b).map fun os => ⟨s, (assignments s).zipWith Row.mk os⟩ := by
    rw [compute]
    cases outcomes s b <;> rfl
  rw [hmap, outcomes_eq, whenKnown_map, assignments, List.zipWith_map, List.zipWith_self]
  rfl

theorem build_eq {s : Statement} (h : s.atoms.length ≤ maxVariables) (name : Text) (b : Backend) :
    build s ⟨name, some b⟩ =
      match s.used.find? fun x => !s.atoms.contains x with
      | some x => .error (.undefined ⟨.name x, sourceOf s b⟩)
      | none => .ok (byMeaning s) := by
  have henumerable : enumerable s = true := decide_eq_true h
  rw [build, if_pos henumerable]
  simp only [compute_eq, whenKnown]
  cases s.used.find? fun x => !s.atoms.contains x <;> rfl

/-- A statement that declares the names it uses has its table, whatever the backend. -/
theorem build_of_declared {s : Statement} (h : s.atoms.length ≤ maxVariables)
    (hused : ∀ x ∈ s.used, x ∈ s.atoms) (name : Text) (b : Backend) :
    build s ⟨name, some b⟩ = .ok (byMeaning s) := by
  have hnone : (s.used.find? fun x => !s.atoms.contains x) = none :=
    List.find?_eq_none.mpr fun x hx => by simp [hused x hx]
  rw [build_eq h, hnone]

theorem build_ne_undefined {s : Statement} (hused : ∀ x ∈ s.used, x ∈ s.atoms)
    (choice : BackendChoice) (u : Undefined) : build s choice ≠ .error (.undefined u) := by
  intro hu
  obtain ⟨name, _ | b⟩ := choice
  · rw [build] at hu
    split at hu <;> cases hu
  · by_cases h : s.atoms.length ≤ maxVariables
    · rw [build_of_declared h hused] at hu
      cases hu
    · have henumerable : ¬ enumerable s = true := fun he => h (of_decide_eq_true he)
      rw [build, if_neg henumerable] at hu
      cases hu

/-- The backends agree on every statement whose variables can be enumerated, also where its list of
variables is unordered or has repetitions or gaps: they build the same table, row for row, unless
the statement uses a name that it does not declare, and then both fail with the same one. -/
theorem build_backends {s : Statement} (h : s.atoms.length ≤ maxVariables) (name name' : Text) :
    match s.used.find? fun x => !s.atoms.contains x with
    | none => ∃ t, build s ⟨name, some .rowByRow⟩ = .ok t ∧
        build s ⟨name', some .columnByColumn⟩ = .ok t
    | some x => build s ⟨name, some .rowByRow⟩ = .error (.undefined ⟨.name x, some s.text⟩) ∧
        build s ⟨name', some .columnByColumn⟩ = .error (.undefined ⟨.name x, none⟩) := by
  rw [build_eq h, build_eq h]
  cases s.used.find? fun x => !s.atoms.contains x with
  | none => exact ⟨byMeaning s, rfl, rfl⟩
  | some x => exact ⟨rfl, rfl⟩

theorem build_backends_repeated_and_missing :
    let f : Formula := .binary .implies ['-', '>'] (.var ['q'] ['q']) (.var ['p'] ['p'])
    let s : Statement := ⟨"q->p".toList, f, [['q'], ['p'], ['q']], [.not ['~'] f]⟩
    let u : Statement := ⟨"q->p".toList, f, [['q'], ['q']], [.not ['~'] f]⟩
    (s.atoms.length ≤ maxVariables ∧
      ∃ t, build s ⟨[], some .rowByRow⟩ = .ok t ∧ build s ⟨[], some .columnByColumn⟩ = .ok t) ∧
    u.atoms.length ≤ maxVariables ∧
      build u ⟨[], some .rowByRow⟩ = .error (.undefined ⟨.name ['p'], some u.text⟩) ∧
      build u ⟨[], some .columnByColumn⟩ = .error (.undefined ⟨.name ['p'], none⟩) := by
  intro f s u
  have hs : s.atoms.length ≤ maxVariables := by decide
  have hu : u.atoms.length ≤ maxVariables := by decide
  exact ⟨⟨hs, build_backends hs [] []⟩, hu, build_backends hu [] []⟩

end Table

end Sentential
