import Mathlib.Data.List.Lex
import Mathlib.Data.List.Sort
import Sentential.Text.Basic

/-!
# Ascending lists of texts

Texts are ordered by the code point of the first character in which they differ, and a text comes
before those that continue it. An ascending list holds every text once, and two ascending lists of
the same texts are equal. Hence the ascending list of some texts depends only on which texts they
are, not on their order or on how often each is given.
-/

namespace Sentential.Text

/-- The order of texts by code points. -/
def Before (a b : Text) : Prop :=
  List.Lex (fun c d => c.toNat < d.toNat) a b

theorem precedes_iff {a b : Text} : precedes a b = true ↔ Before a b := by
  unfold Before
  induction a generalizing b with
  | nil => cases b <;> simp [precedes]
  | cons c a ih =>
      cases b with
      | nil => simp [precedes]
      | cons d b => simp [precedes, List.cons_lex_cons_iff, ih]

instance : Std.Asymm Before where
  asymm _ _ := List.lex_asymm fun h => Nat.lt_asymm h

theorem Before.trans {a b c : Text} (hab : Before a b) (hbc : Before b c) : Before a c :=
  List.lex_trans (fun h h' => Nat.lt_trans h h') hab hbc

theorem before_or_before {a b : Text} (hne : a ≠ b) : Before a b ∨ Before b a := by
  have htri : Std.Trichotomous fun c d : Char => c.toNat < d.toNat :=
    ⟨fun c d hcd hdc => Char.toNat_inj.mp (by omega)⟩
  by_contra h
  obtain ⟨hab, hba⟩ := not_or.mp h
  exact hne ((List.Lex.trichotomous _).trichotomous a b hab hba)

theorem mem_insertSorted {x a : Text} {texts : List Text} :
    x ∈ insertSorted a texts ↔ x = a ∨ x ∈ texts := by
  induction texts with
  | nil => simp [insertSorted]
  | cons b texts ih =>
      rw [insertSorted]
      split
      · simp
      · split
        · next hab => simp [hab]
        · rw [List.mem_cons, ih, List.mem_cons]
          exact or_left_comm

theorem pairwise_insertSorted {a : Text} {texts : List Text} (h : texts.Pairwise Before) :
    (insertSorted a texts).Pairwise Before := by
  induction texts with
  | nil => exact List.pairwise_singleton _ _
  | cons b texts ih =>
      obtain ⟨hb, htexts⟩ := List.pairwise_cons.mp h
      rw [insertSorted]
      split
      · next hab =>
          have hab := precedes_iff.mp hab
          exact List.pairwise_cons.mpr ⟨List.forall_mem_cons.mpr
            ⟨hab, fun x hx => hab.trans (hb x hx)⟩, h⟩
      · next hab =>
          split
          · exact h
          · next hne =>
              have hba : Before b a :=
                (before_or_before hne).resolve_left fun h => hab (precedes_iff.mpr h)
              refine List.pairwise_cons.mpr ⟨fun x hx => ?_, ih htexts⟩
              rcases mem_insertSorted.mp hx with rfl | hx
              · exact hba
              · exact hb x hx

theorem mem_sortedSet {x : Text} {texts : List Text} : x ∈ sortedSet texts ↔ x ∈ texts := by
  induction texts with
  | nil => exact Iff.rfl
  | cons a texts ih =>
      rw [sortedSet, List.foldr_cons, mem_insertSorted, ← sortedSet, ih, List.mem_cons]

theorem pairwise_sortedSet (texts : List Text) : (sortedSet texts).Pairwise Before := by
  induction texts with
  | nil => exact List.Pairwise.nil
  | cons a texts ih => exact pairwise_insertSorted ih

theorem nodup_sortedSet (texts : List Text) : (sortedSet texts).Nodup :=
  (pairwise_sortedSet texts).nodup

/-- Which texts a list holds determines its ascending list. -/
theorem sortedSet_congr {texts texts' : List Text} (h : ∀ x, x ∈ texts ↔ x ∈ texts') :
    sortedSet texts = sortedSet texts' :=
  (pairwise_sortedSet texts).eq_of_mem_iff (pairwise_sortedSet texts') fun x => by
    rw [mem_sortedSet, mem_sortedSet, h]

end Sentential.Text
