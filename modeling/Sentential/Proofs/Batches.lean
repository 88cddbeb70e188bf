import Mathlib.Data.List.Forall2
import Sentential.Proofs.Backends

/-!
# Any batch of rows

Evaluation column by column takes all rows of a truth table at once, but nothing in it asks for the
rows of a table. Any rows that are as long as the list of names will do, in any order, repeated, or
none at all: a column has one value for each of them, and the value in a row depends on that row
alone. What comes out for a row is what evaluation gives under an assignment that takes its values
from the row, where the last place of a repeated name counts.
-/

namespace Sentential

namespace Column

/-- The place of a name is the last one that it has. -/
theorem place?_eq_some_iff {x : Text} {names : List Text} {i : Nat} :
    place? x names = some i ↔ names[i]? = some x ∧ x ∉ names.drop (i + 1) := by
  induction names generalizing i with
  | nil => simp [place?]
  | cons name names ih =>
      rw [place?]
      cases hplace : place? x names with
      | some k =>
          -- the name occurs in the rest, so its last place is not the first
          have hmem : x ∈ names := List.mem_of_getElem? (ih.mp hplace).1
          rw [hplace] at ih
          cases i with
          | zero => simp [hmem]
          | succ i => simpa using ih
      | none =>
          have hmem : x ∉ names := by
            rw [← List.contains_iff_mem, ← isSome_place?, hplace]
            exact Bool.false_ne_true
          cases i with
          | zero => simp [hmem]
          | succ i =>
              have hi : names[i]? ≠ some x := fun h => hmem (List.mem_of_getElem? h)
              by_cases hname : name = x <;> simp [hname, hi]

end Column

namespace Assignment

/-- The assignment takes the value of every name from a row, in which the last place of the name
counts. -/
def Takes (a : Assignment) (names : List Text) (row : List Bool) : Prop :=
  ∀ k x b, names[k]? = some x → x ∉ names.drop (k + 1) → row[k]? = some b → a.value? x = some b

variable {names : List Text} {row : List Bool}

theorem takes_iff {a : Assignment} (h : row.length = names.length) :
    a.Takes names row ↔ ∀ x ∈ names, a.value? x = Column.cell? names row x := by
  constructor
  · intro ha x hx
    obtain ⟨k, hk⟩ : ∃ k, Column.place? x names = some k := by
      rw [← Option.isSome_iff_exists, Column.isSome_place?, List.contains_iff_mem]
      exact hx
    obtain ⟨hname, hlast⟩ := Column.place?_eq_some_iff.mp hk
    obtain ⟨hlt, -⟩ := List.getElem?_eq_some_iff.mp hname
    have hcell : row[k]? = some (row.getD k false) := by
      rw [List.getD_eq_getElem?_getD, List.getElem?_eq_getElem (h ▸ hlt), Option.getD_some]
    rw [Column.cell?_eq_place? h, hk, ha k x _ hname hlast hcell, Option.map_some]
  · intro ha k x b hname hlast hb
    rw [ha x (List.mem_of_getElem? hname), Column.cell?_eq_place? h,
      Column.place?_eq_some_iff.mpr ⟨hname, hlast⟩, Option.map_some,
      List.getD_eq_getElem?_getD, hb, Option.getD_some]

theorem takes_ofRow (h : row.length = names.length) (source : Option Text) :
    (ofRow names row source).Takes names row :=
  (takes_iff h).mpr fun x _ => value?_ofRow h x

end Assignment

namespace Statement

theorem bits_meaning (s : Statement) (v : Text → Bool) :
    (s.meaning v).bits = (s.subExpressions ++ [s.root]).map (Formula.meaning v) := by
  rw [Outcome.bits, meaning, List.map_append, List.map_singleton]

/-- Column by column, a statement that declares what it uses has one outcome for each row of any
batch, in the order of the rows. The outcome holds the values of the sub-expressions and then that
of the statement, as evaluation gives them under whatever assignment takes its values from the
row. -/
theorem columnOutcomes_rowwise {s : Statement}
    (hused : ∀ f ∈ s.root :: s.subExpressions, ∀ x ∈ f.names, x ∈ s.atoms)
    {rows : List (List Bool)} (hrows : ∀ row ∈ rows, row.length = s.atoms.length) :
    ∃ os, s.columnOutcomes rows = .ok os ∧ os.length = rows.length ∧
      ∀ (i : Nat) row, rows[i]? = some row → ∃ o, os[i]? = some o ∧
        (Assignment.ofRow s.atoms row (some s.text)).Takes s.atoms row ∧
        ∀ a : Assignment, a.Takes s.atoms row →
          List.Forall₂ (fun f b => f.eval a = .ok b) (s.subExpressions ++ [s.root]) o.bits := by
  have hatoms : ∀ x ∈ s.used, x ∈ s.atoms := by
    intro x hx
    obtain ⟨f, hf, hx⟩ := mem_used.mp hx
    exact hused f hf x hx
  have hknown : ∀ x ∈ s.used, s.atoms.contains x = true := fun x hx =>
    List.contains_iff_mem.mpr (hatoms x hx)
  refine ⟨rows.map fun row => s.meaning (Column.truth s.atoms row), ?_, List.length_map _, ?_⟩
  · rw [columnOutcomes_eq s hrows, whenKnown_of_known hknown]
  · intro i row hi
    have hrow : row.length = s.atoms.length := hrows row (List.mem_of_getElem? hi)
    refine ⟨s.meaning (Column.truth s.atoms row), by rw [List.getElem?_map, hi, Option.map_some],
      Assignment.takes_ofRow hrow _, fun a ha => ?_⟩
    have hvalue : ∀ x ∈ s.used, a.value? x = some (Column.truth s.atoms row x) := fun x hx => by
      rw [(Assignment.takes_iff hrow).mp ha x (hatoms x hx), Column.cell?_of_mem hrow (hatoms x hx)]
    have heval := eval_of_knows_used fun x hx => Assignment.knows_of_value? (hvalue x hx)
    have hmeaning : s.meaning (Column.truth s.atoms row) = s.meaning a.truth :=
      s.meaning_congr fun x hx => (Assignment.truth_of_value? (hvalue x hx)).symm
    rw [hmeaning, bits_meaning, List.forall₂_map_right_iff, List.forall₂_same]
    intro f hf
    exact heval f (by simpa [or_comm] using hf)

theorem columnOutcomes_rowwise_repeated :
    let f : Formula := .binary .implies ['-', '>'] (.var ['p'] ['p']) (.var ['q'] ['q'])
    let s : Statement := ⟨"p->q".toList, f, [['q'], ['p'], ['q']], [.not ['~'] f]⟩
    let rows := [[false, true, true], [true, true, false], [false, true, true]]
    let a : Assignment := .ofRow s.atoms [true, true, false] none
    ∃ os o, s.columnOutcomes rows = .ok os ∧ os.length = 3 ∧ os[1]? = some o ∧
      List.Forall₂ (fun g b => g.eval a = .ok b) [.not ['~'] f, f] o.bits ∧
      f.eval a = .ok false := by
  intro f s rows a
  have hused : ∀ g ∈ s.root :: s.subExpressions, ∀ x ∈ g.names, x ∈ s.atoms := by decide
  have hrows : ∀ row ∈ rows, row.length = s.atoms.length := by decide
  have ha : a.Takes s.atoms [true, true, false] := Assignment.takes_ofRow rfl none
  obtain ⟨os, hos, hlength, hrow⟩ := columnOutcomes_rowwise hused hrows
  obtain ⟨o, ho, -, hvalues⟩ := hrow 1 [true, true, false] rfl
  exact ⟨os, o, hos, hlength, ho, hvalues a ha, rfl⟩

end Statement

end Sentential
