import Mathlib.Data.Finset.Card
import Sentential.Proofs.Rows

/-!
# Equal tables and equivalent statements

Two statements over the same variables have the same rows as far as their assignments go, so their
tables are the same when the outcomes are, row by row. Since the rows leave out no way to make the
variables true or false, this is to say that the statements mean the same, each together with its
sub-expressions. Statements over different variables are brought over the same ones by declaring
those of the other: the ascending list of both is the same from either side, and evaluation does not
notice the variables that a statement does not use.
-/

namespace Sentential

namespace Table

/-- Over the same variables, tables are the same when the statements mean the same. -/
theorem same_byMeaning_iff {s t : Statement} (hatoms : s.atoms = t.atoms)
    (hs : ∀ x ∈ s.used, x ∈ s.atoms) (ht : ∀ x ∈ t.used, x ∈ t.atoms) :
    (byMeaning s).same (byMeaning t) = true ↔ ∀ v, s.meaning v = t.meaning v := by
  rw [same, beq_iff_eq, byMeaning, byMeaning, ← hatoms, List.map_map, List.map_map,
    List.map_inj_left]
  constructor
  · intro h v
    have hrow := congrArg Prod.snd (h (s.atoms.map v) (mem_allRows_map s.atoms v))
    calc s.meaning v = s.meaning (Column.truth s.atoms (s.atoms.map v)) :=
          (s.meaning_truth_map hs v).symm
      _ = t.meaning (Column.truth s.atoms (s.atoms.map v)) := hrow
      _ = t.meaning v := by rw [hatoms, t.meaning_truth_map ht]
  · intro h row _
    exact congrArg (Prod.mk _) (h _)

end Table

namespace Statement

/-- Two statements mean the same when their roots do and each sub-expression of the one means the
same as the one in its place of the other. -/
theorem meaning_eq_iff {s t : Statement} {v : Text → Bool} :
    s.meaning v = t.meaning v ↔
      s.subExpressions.length = t.subExpressions.length ∧ s.root.meaning v = t.root.meaning v ∧
        ∀ (k : Nat) f g, s.subExpressions[k]? = some f → t.subExpressions[k]? = some g →
          f.meaning v = g.meaning v := by
  rw [meaning, meaning, Outcome.mk.injEq]
  constructor
  · rintro ⟨hmarked, hroot⟩
    refine ⟨by simpa using congrArg List.length hmarked, hroot, fun k f g hf hg => ?_⟩
    have hk := congrArg (·[k]?) hmarked
    simp only [List.getElem?_map, hf, hg, Option.map_some, Option.some.injEq] at hk
    exact hk
  · rintro ⟨hlength, hroot, hmarked⟩
    refine ⟨List.ext_getElem? fun k => ?_, hroot⟩
    rw [List.getElem?_map, List.getElem?_map]
    cases hf : s.subExpressions[k]? with
    | none =>
        have hk : t.subExpressions.length ≤ k := hlength ▸ List.getElem?_eq_none_iff.mp hf
        rw [List.getElem?_eq_none hk]
    | some f =>
        obtain ⟨hk, -⟩ := List.getElem?_eq_some_iff.mp hf
        obtain ⟨g, hg⟩ : ∃ g, t.subExpressions[k]? = some g :=
          ⟨_, List.getElem?_eq_getElem (hlength ▸ hk)⟩
        rw [hg, Option.map_some, Option.map_some, hmarked k f g hf hg]

theorem atoms_withVariables_comm (s t : Statement) :
    (s.withVariables t.atoms).atoms = (t.withVariables s.atoms).atoms :=
  Text.sortedSet_congr fun x => by rw [List.mem_append, List.mem_append, or_comm]

theorem length_atoms_withVariables (s : Statement) (names : List Text) :
    (s.withVariables names).atoms.length = (s.atoms ++ names).toFinset.card := by
  rw [withVariables, ← List.toFinset_card_of_nodup (Text.nodup_sortedSet (s.atoms ++ names))]
  congr 1
  ext x
  simp [Text.mem_sortedSet]

/-- Under an assignment of all names in use, to mean the same is to evaluate to the same. -/
theorem meaning_eq_iff_eval {s t : Statement} {a : Assignment}
    (hs : ∀ x ∈ s.used, a.knows x = true) (ht : ∀ x ∈ t.used, a.knows x = true) :
    s.meaning a.truth = t.meaning a.truth ↔
      s.subExpressions.length = t.subExpressions.length ∧
        (∃ b, s.evaluate a = .ok b ∧ t.evaluate a = .ok b) ∧
        ∀ (k : Nat) f g, s.subExpressions[k]? = some f → t.subExpressions[k]? = some g →
          ∃ b, f.eval a = .ok b ∧ g.eval a = .ok b := by
  obtain ⟨hsroot, hsmarked⟩ := List.forall_mem_cons.mp (eval_of_knows_used hs)
  obtain ⟨htroot, htmarked⟩ := List.forall_mem_cons.mp (eval_of_knows_used ht)
  have hroot : (∃ b, s.evaluate a = .ok b ∧ t.evaluate a = .ok b) ↔
      s.root.meaning a.truth = t.root.meaning a.truth := by
    rw [evaluate, evaluate, hsroot, htroot]
    simp [eq_comm]
  rw [meaning_eq_iff, hroot]
  refine and_congr_right fun _ => and_congr_right fun _ => ?_
  refine forall_congr' fun k => forall_congr' fun f => forall_congr' fun g =>
    forall_congr' fun hf => forall_congr' fun hg => ?_
  rw [hsmarked f (List.mem_of_getElem? hf), htmarked g (List.mem_of_getElem? hg)]
  simp [eq_comm]

/-- To mean the same, whatever is true, is to evaluate to the same under every assignment of just
the names in a list that includes those in use. -/
theorem meaning_eq_iff_forall_eval {s t : Statement} {names : List Text}
    (hs : ∀ x ∈ s.used, x ∈ names) (ht : ∀ x ∈ t.used, x ∈ names) :
    (∀ v, s.meaning v = t.meaning v) ↔
      s.subExpressions.length = t.subExpressions.length ∧
      ∀ a : Assignment, (∀ x, x ∈ names ↔ a.knows x = true) →
        (∃ b, s.evaluate a = .ok b ∧ t.evaluate a = .ok b) ∧
        ∀ (k : Nat) f g, s.subExpressions[k]? = some f → t.subExpressions[k]? = some g →
          ∃ b, f.eval a = .ok b ∧ g.eval a = .ok b := by
  constructor
  · intro h
    refine ⟨(meaning_eq_iff.mp (h fun _ => true)).1, fun a ha => ?_⟩
    have hknows : ∀ x ∈ names, a.knows x = true := fun x hx => (ha x).mp hx
    exact ((meaning_eq_iff_eval (fun x hx => hknows x (hs x hx))
      fun x hx => hknows x (ht x hx)).mp (h a.truth)).2
  · rintro ⟨hlength, h⟩ v
    -- an assignment in which `v` can be seen
    let a := Assignment.ofTruth names v none
    have hknows : ∀ x ∈ names, a.knows x = true := fun x hx => Assignment.knows_ofTruth.mpr hx
    have htruth : ∀ x ∈ names, v x = a.truth x :=
      fun x hx => (Assignment.truth_ofTruth hx v none).symm
    have hsame : s.meaning a.truth = t.meaning a.truth :=
      (meaning_eq_iff_eval (fun x hx => hknows x (hs x hx)) fun x hx => hknows x (ht x hx)).mpr
        ⟨hlength, h a fun x => Assignment.knows_ofTruth.symm⟩
    calc s.meaning v = s.meaning a.truth := s.meaning_congr fun x hx => htruth x (hs x hx)
      _ = t.meaning a.truth := hsame
      _ = t.meaning v := t.meaning_congr fun x hx => (htruth x (ht x hx)).symm

/-- Two statements that were read, brought over the variables of both, have the same table if and
only if they have equally many sub-expressions, and under every assignment of just these variables
the two evaluate to the same, and so do each sub-expression and the one in its place. -/
theorem same_iff_equivalent {o₁ o₂ : ParseOptions} {text₁ text₂ : Text} {s₁ s₂ : Statement}
    (h₁ : parse o₁ text₁ = .ok s₁) (h₂ : parse o₂ text₂ = .ok s₂)
    (hcount : (s₁.atoms ++ s₂.atoms).toFinset.card ≤ Table.maxVariables)
    (name₁ name₂ : Text) (b₁ b₂ : Backend) :
    ∃ t₁ t₂, Table.build (s₁.withVariables s₂.atoms) ⟨name₁, some b₁⟩ = .ok t₁ ∧
      Table.build (s₂.withVariables s₁.atoms) ⟨name₂, some b₂⟩ = .ok t₂ ∧
      (t₁.same t₂ = true ↔
        s₁.subExpressions.length = s₂.subExpressions.length ∧
        ∀ a : Assignment, (∀ x, x ∈ s₁.atoms ∨ x ∈ s₂.atoms ↔ ∃ b, a.get (.name x) = .ok b) →
          (∃ b, s₁.evaluate a = .ok b ∧ s₂.evaluate a = .ok b) ∧
          ∀ (k : Nat) f g, s₁.subExpressions[k]? = some f → s₂.subExpressions[k]? = some g →
            ∃ b, f.eval a = .ok b ∧ g.eval a = .ok b) := by
  have hwide₁ := fun x => mem_atoms_of_used (x := x) (.withVariables (.parse h₁) s₂.atoms)
  have hwide₂ := fun x => mem_atoms_of_used (x := x) (.withVariables (.parse h₂) s₁.atoms)
  have hatoms := atoms_withVariables_comm s₁ s₂
  have hcount₁ := (length_atoms_withVariables s₁ s₂.atoms).trans_le hcount
  refine ⟨_, _, Table.build_of_declared hcount₁ hwide₁ name₁ b₁,
    Table.build_of_declared (hatoms ▸ hcount₁) hwide₂ name₂ b₂, ?_⟩
  rw [Table.same_byMeaning_iff hatoms hwide₁ hwide₂]
  show (∀ v, s₁.meaning v = s₂.meaning v) ↔ _
  have hused₁ : ∀ x ∈ s₁.used, x ∈ s₁.atoms ++ s₂.atoms :=
    fun x hx => List.mem_append_left _ (mem_atoms_of_used (.parse h₁) hx)
  have hused₂ : ∀ x ∈ s₂.used, x ∈ s₁.atoms ++ s₂.atoms :=
    fun x hx => List.mem_append_right _ (mem_atoms_of_used (.parse h₂) hx)
  have heval := meaning_eq_iff_forall_eval hused₁ hused₂
  simp only [List.mem_append, Assignment.knows_iff] at heval
  exact heval

theorem same_of_absorbed_variable :
    ∃ s₁ s₂ t₁ t₂, parse {} "*(p&q)||(p&q&r)".toList = .ok s₁ ∧ parse {} "*(q&p)".toList = .ok s₂ ∧
      s₁.atoms = [['p'], ['q'], ['r']] ∧ s₂.atoms = [['p'], ['q']] ∧
      (s₁.atoms ++ s₂.atoms).toFinset.card ≤ Table.maxVariables ∧
      Table.build (s₁.withVariables s₂.atoms) ⟨[], some .rowByRow⟩ = .ok t₁ ∧
      Table.build (s₂.withVariables s₁.atoms) ⟨[], some .columnByColumn⟩ = .ok t₂ ∧
      t₁.same t₂ = true ∧
      ∀ a : Assignment, (∀ x, x ∈ s₁.atoms ∨ x ∈ s₂.atoms ↔ ∃ b, a.get (.name x) = .ok b) →
        ∃ b, s₁.evaluate a = .ok b ∧ s₂.evaluate a = .ok b := by
  let p : Formula := .var ['p'] ['p']
  let q : Formula := .var ['q'] ['q']
  let r : Formula := .var ['r'] ['r']
  let pq : Formula := .binary .and ['&'] p q
  let qp : Formula := .binary .and ['&'] q p
  let s₁ : Statement := ⟨"*(p&q)||(p&q&r)".toList,
    .binary .or ['|', '|'] pq (.binary .and ['&'] pq r), [['p'], ['q'], ['r']], [pq]⟩
  let s₂ : Statement := ⟨"*(q&p)".toList, qp, [['p'], ['q']], [qp]⟩
  have h₁ : parse {} "*(p&q)||(p&q&r)".toList = .ok s₁ := by decide +kernel
  have h₂ : parse {} "*(q&p)".toList = .ok s₂ := by decide +kernel
  have hcount : (s₁.atoms ++ s₂.atoms).toFinset.card ≤ Table.maxVariables := by decide
  obtain ⟨t₁, t₂, ht₁, ht₂, hsame⟩ :=
    same_iff_equivalent h₁ h₂ hcount [] [] .rowByRow .columnByColumn
  -- both tables have eight rows, and the second is over a variable that its text has not
  have heq : ((Table.build (s₁.withVariables s₂.atoms) ⟨[], some .rowByRow⟩).toOption.any fun t =>
      (Table.build (s₂.withVariables s₁.atoms) ⟨[], some .columnByColumn⟩).toOption.any fun u =>
        t.same u) = true := by decide +kernel
  rw [ht₁, ht₂] at heq
  exact ⟨s₁, s₂, t₁, t₂, h₁, h₂, rfl, rfl, hcount, ht₁, ht₂, heq,
    fun a ha => ((hsame.mp heq).2 a ha).1⟩

end Statement

end Sentential
