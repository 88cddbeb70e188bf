import Mathlib.Control.Monad.Basic
import Mathlib.Data.List.Forall2
import Sentential.Proofs.Precedence

/-!
# Marked groups and their parentheses

Which parenthesis closes a group can be told from the tokens alone: it is the one up to which, from
the opening parenthesis on, every group that is opened is closed. A parenthesis has at most one such
partner, and in the tokens of a derivation every opening one has it, because what a derivation reads
is balanced.

The places of the marked groups are therefore read off a derivation along with their formulas, in
the order in which the groups are closed. Nothing that stands around a group has a part in this: at
whatever place of whatever text a derivation is read, its groups stand at the same distance from its
beginning, and what one of them encloses has the derivation of its formula as it would have alone.
-/

namespace Sentential

namespace Token

variable {marker : Option Char} {ts us : List Token} {t : Token} {i j k : Nat}

/-- How many groups the tokens open. -/
def opened (ts : List Token) : Nat :=
  ts.countP (·.kind = .openParen)

/-- How many groups the tokens close. -/
def closed (ts : List Token) : Nat :=
  ts.countP (·.kind = .closeParen)

/-- Every group that is opened is closed, and none is closed that has not been opened. -/
def Balanced (ts : List Token) : Prop :=
  closed ts = opened ts ∧ ∀ n, closed (ts.take n) ≤ opened (ts.take n)

/-- The tokens strictly between two places. -/
def between (ts : List Token) (i j : Nat) : List Token :=
  (ts.drop (i + 1)).take (j - (i + 1))

/-- The parenthesis at the place `i` opens a group, and the one at the place `j` closes it. -/
structure Matches (ts : List Token) (i j : Nat) : Prop where
  lt : i < j
  opens : ∃ t, ts[i]? = some t ∧ t.kind = .openParen
  closes : ∃ t, ts[j]? = some t ∧ t.kind = .closeParen
  balanced : Balanced (between ts i j)

/-- The token opens a group, and its lexeme carries the marker. -/
def Marked (marker : Option Char) (t : Token) : Prop :=
  t.kind = .openParen ∧ ∃ m, marker = some m ∧ t.lexeme.head? = some m

theorem marked_iff :
    t.Marked marker ↔
      t.kind = .openParen ∧ (marker.isSome && t.lexeme.head? == marker) = true := by
  unfold Marked
  cases marker <;> simp

instance (marker : Option Char) (t : Token) : Decidable (t.Marked marker) :=
  decidable_of_iff _ marked_iff.symm

theorem recorded_eq (marker : Option Char) (left : Text) (f : Formula) :
    recorded marker left f = if Marked marker ⟨.openParen, left⟩ then [f] else [] := by
  simp only [recorded, marked_iff, true_and]

/-! ## Balance -/

theorem opened_append (ts us : List Token) : opened (ts ++ us) = opened ts + opened us :=
  List.countP_append

theorem closed_append (ts us : List Token) : closed (ts ++ us) = closed ts + closed us :=
  List.countP_append

theorem balanced_append (hts : Balanced ts) (hus : Balanced us) : Balanced (ts ++ us) := by
  refine ⟨by rw [closed_append, opened_append, hts.1, hus.1], fun n => ?_⟩
  rw [List.take_append, closed_append, opened_append]
  exact Nat.add_le_add (hts.2 n) (hus.2 _)

theorem balanced_singleton (hopen : t.kind ≠ .openParen) (hclose : t.kind ≠ .closeParen) :
    Balanced [t] := by
  refine ⟨by simp [closed, opened, hopen, hclose], fun n => ?_⟩
  cases n <;> simp [closed, hclose]

theorem balanced_group {left right : Token} (hleft : left.kind = .openParen)
    (hright : right.kind = .closeParen) (h : Balanced ts) :
    Balanced (left :: (ts ++ [right])) := by
  have hopened : ∀ us, opened (left :: us) = opened us + 1 := fun us => by simp [opened, hleft]
  have hclosed : ∀ us, closed (left :: us) = closed us := fun us => by simp [closed, hleft]
  refine ⟨?_, fun n => ?_⟩
  · rw [hopened, hclosed, opened_append, closed_append, h.1]
    simp [opened, closed, hright]
  · cases n with
    | zero => exact Nat.le_refl 0
    | succ n =>
        rw [List.take_succ_cons, hopened, hclosed, List.take_append, opened_append, closed_append]
        have hinner := h.2 n
        have hone : closed ([right].take (n - ts.length)) ≤ 1 :=
          Nat.le_trans List.countP_le_length (List.length_take_le' _ _)
        omega

theorem getElem?_drop_between (ts : List Token) (hij : i < j) :
    (ts.drop (i + 1))[j - (i + 1)]? = ts[j]? := by
  rw [List.getElem?_drop]
  congr 1
  omega

theorem not_lt_of_matches (hj : Matches ts i j) (hk : Matches ts i k) : ¬ j < k := by
  intro hlt
  -- up to the first of the two places more groups would be closed than opened
  obtain ⟨t, ht, hclose⟩ := hj.closes
  have hij := hj.lt
  have hbeginning : (between ts i k).take (j - (i + 1) + 1) = between ts i j ++ [t] := by
    rw [between, List.take_take, Nat.min_eq_left (by omega), List.take_add_one,
      getElem?_drop_between ts hij, ht]
    rfl
  have hle := hk.balanced.2 (j - (i + 1) + 1)
  rw [hbeginning, closed_append, opened_append, hj.balanced.1] at hle
  have hone : closed [t] = 1 ∧ opened [t] = 0 := by simp [closed, opened, hclose]
  omega

/-- A group is closed at one place only. -/
theorem Matches.unique (hj : Matches ts i j) (hk : Matches ts i k) : j = k :=
  Nat.le_antisymm (Nat.le_of_not_lt (not_lt_of_matches hk hj))
    (Nat.le_of_not_lt (not_lt_of_matches hj hk))

theorem between_append (before inner after : List Token) (left right : Token) :
    between (before ++ left :: (inner ++ right :: after)) before.length
      (before.length + inner.length + 1) = inner := by
  have hcut : before.length + inner.length + 1 - (before.length + 1) = inner.length := by omega
  rw [between, List.drop_length_add_append, hcut]
  simp

theorem matches_append (before after : List Token) {inner : List Token} {left right : Token}
    (hleft : left.kind = .openParen) (hright : right.kind = .closeParen) (h : Balanced inner) :
    Matches (before ++ left :: (inner ++ right :: after)) before.length
      (before.length + inner.length + 1) := by
  refine ⟨by omega, ⟨left, by simp, hleft⟩, ⟨right, ?_, hright⟩, ?_⟩
  · rw [Nat.add_assoc, List.getElem?_append_right (Nat.le_add_right _ _)]
    simp
  · rwa [between_append]

end Token

namespace Formula

theorem at?_append (f : Formula) (path path' : List Nat) :
    f.at? (path ++ path') = (f.at? path).bind fun g => g.at? path' := by
  induction path generalizing f with
  | nil => cases path' <;> rfl
  | cons i path ih =>
      rw [List.cons_append, at?, at?]
      cases f.children[i]? with
      | none => rfl
      | some g => exact ih g

theorem CompoundsWithin.of_at? {limit : Nat} {f g : Formula} (h : f.CompoundsWithin limit)
    {path : List Nat} (hg : f.at? path = some g) : g.CompoundsWithin limit := by
  intro path' op lexeme l r hat
  refine h (path ++ path') op lexeme l r ?_
  rw [at?_append, hg]
  exact hat

end Formula

namespace Derivation

variable {marker : Option Char} {phrase : Phrase} {ts : List Token} {f : Formula}

theorem balanced (d : Derivation phrase ts f) : Token.Balanced ts := by
  induction d with
  | operand d ih => exact ih
  | @compound tier op lexeme ts us f g h d e ihd ihe =>
      have hop := @Token.balanced_singleton ⟨.connective op, lexeme⟩ (by simp) (by simp)
      exact Token.balanced_append ihd (Token.balanced_append hop ihe)
  | literal lexeme => exact Token.balanced_singleton (by simp) (by simp)
  | var lexeme => exact Token.balanced_singleton (by simp) (by simp)
  | @negation lexeme ts f d ih =>
      have hneg := @Token.balanced_singleton ⟨.negation, lexeme⟩ (by simp) (by simp)
      exact Token.balanced_append hneg ih
  | group d ih => exact Token.balanced_group rfl rfl ih

/-- The places of the parentheses of the marked groups, where the first token has the place `i`, in
the order in which the groups are closed. -/
def spans (marker : Option Char) {phrase : Phrase} {ts : List Token} {f : Formula} :
    Derivation phrase ts f → Nat → List (Nat × Nat)
  | operand d, i => d.spans marker i
  | @compound _ _ _ ts _ _ _ _ d e, i => d.spans marker i ++ e.spans marker (i + ts.length + 1)
  | literal _, _ | var _, _ => []
  | negation d, i => d.spans marker (i + 1)
  | @group left _ ts _ d, i =>
    d.spans marker (i + 1) ++
      if Token.Marked marker ⟨.openParen, left⟩ then [(i, i + ts.length + 1)] else []

/-- The places are those of a marked pair of parentheses in `all`, which enclose tokens that derive
`g`, a part of `f`, with no more than `n` negations and groups in each other. -/
structure Encloses (marker : Option Char) (all : List Token) (f : Formula) (n : Nat)
    (span : Nat × Nat) (g : Formula) : Prop where
  isMatch : Token.Matches all span.1 span.2
  marked : ∃ t, all[span.1]? = some t ∧ t.Marked marker
  part : ∃ path, f.at? path = some g
  derives : ∃ e : Derivation (.expression .loose) (Token.between all span.1 span.2) g,
    e.nesting ≤ n

/-- What is enclosed as a part of a formula is enclosed as a part of what the formula is a part
of. -/
theorem Encloses.lift {all : List Token} {f' g : Formula} {m n : Nat} {span : Nat × Nat}
    (h : Encloses marker all f m span g) (path : List Nat) (hf : f'.at? path = some f)
    (hle : m ≤ n) : Encloses marker all f' n span g := by
  obtain ⟨path', hg⟩ := h.part
  obtain ⟨e, he⟩ := h.derives
  exact ⟨h.isMatch, h.marked, ⟨path ++ path', by rw [Formula.at?_append, hf]; exact hg⟩, e,
    Nat.le_trans he hle⟩

theorem forall₂_encloses (d : Derivation phrase ts f) (before after : List Token) :
    List.Forall₂ (Encloses marker (before ++ ts ++ after) f d.nesting)
      (d.spans marker before.length) (d.marks marker) := by
  induction d generalizing before after with
  | operand d ih => exact ih before after
  | @compound tier op lexeme ts us f g h d e ihd ihe =>
      have hleft : before ++ (ts ++ ⟨.connective op, lexeme⟩ :: us) ++ after =
          before ++ ts ++ (⟨.connective op, lexeme⟩ :: us ++ after) := by simp
      have hright : before ++ (ts ++ ⟨.connective op, lexeme⟩ :: us) ++ after =
          before ++ ts ++ [⟨.connective op, lexeme⟩] ++ us ++ after := by simp
      have hlength : before.length + ts.length + 1 =
          (before ++ ts ++ [Token.mk (.connective op) lexeme]).length := by simp; omega
      refine List.rel_append ?_ ?_
      · rw [hleft]
        exact (ihd before _).imp fun span g hg =>
          hg.lift [0] rfl (Nat.le_max_left _ _)
      · rw [hright, hlength]
        exact (ihe _ after).imp fun span g hg =>
          hg.lift [1] rfl (Nat.le_max_right _ _)
  | literal lexeme | var lexeme => exact .nil
  | @negation lexeme ts f d ih =>
      have hall : before ++ ⟨.negation, lexeme⟩ :: ts ++ after =
          before ++ [⟨.negation, lexeme⟩] ++ ts ++ after := by simp
      have hlength : before.length + 1 = (before ++ [Token.mk .negation lexeme]).length := by simp
      rw [hall, spans, hlength]
      exact (ih _ after).imp fun span g hg => hg.lift [0] rfl (Nat.le_succ _)
  | @group left right ts f d ih =>
      have hall : before ++ ⟨.openParen, left⟩ :: (ts ++ [⟨.closeParen, right⟩]) ++ after =
          before ++ [⟨.openParen, left⟩] ++ ts ++ (⟨.closeParen, right⟩ :: after) := by simp
      have hpair : before ++ ⟨.openParen, left⟩ :: (ts ++ [⟨.closeParen, right⟩]) ++ after =
          before ++ ⟨.openParen, left⟩ :: (ts ++ ⟨.closeParen, right⟩ :: after) := by simp
      have hlength : before.length + 1 = (before ++ [Token.mk .openParen left]).length := by simp
      rw [spans, marks, Token.recorded_eq]
      refine List.rel_append ?_ ?_
      · rw [hall, hlength]
        exact (ih _ _).imp fun span g hg => hg.lift [] rfl (Nat.le_succ _)
      · split
        · next hmarked =>
            refine .cons ⟨?_, ⟨_, by simp, hmarked⟩, ⟨[], rfl⟩, ?_⟩ .nil
            · rw [hpair]
              exact Token.matches_append before after rfl rfl d.balanced
            · rw [hpair, Token.between_append]
              exact ⟨d, Nat.le_succ _⟩
        · exact .nil

theorem mem_spans_bounds (d : Derivation phrase ts f) {i : Nat} {span : Nat × Nat}
    (h : span ∈ d.spans marker i) : i ≤ span.2 ∧ span.2 < i + ts.length := by
  induction d generalizing i with
  | operand d ih => exact ih h
  | compound hop d e ihd ihe =>
      rw [List.length_append, List.length_cons]
      rcases List.mem_append.mp h with h | h
      · have := ihd h
        omega
      · have := ihe h
        omega
  | literal lexeme | var lexeme => cases h
  | negation d ih =>
      have := ih h
      rw [List.length_cons]
      omega
  | group d ih =>
      rw [List.length_cons, List.length_append, List.length_singleton]
      rcases List.mem_append.mp h with h | h
      · have := ih h
        omega
      · split at h
        · rw [List.mem_singleton.mp h]
          omega
        · cases h

/-- The groups are closed in the order in which they are recorded. -/
theorem pairwise_spans (d : Derivation phrase ts f) (i : Nat) :
    (d.spans marker i).Pairwise fun p q => p.2 < q.2 := by
  induction d generalizing i with
  | operand d ih => exact ih i
  | compound hop d e ihd ihe =>
      refine List.pairwise_append.mpr ⟨ihd i, ihe _, fun p hp q hq => ?_⟩
      have hleft := d.mem_spans_bounds hp
      have hright := e.mem_spans_bounds hq
      omega
  | literal lexeme | var lexeme => exact .nil
  | negation d ih => exact ih _
  | group d ih =>
      refine List.pairwise_append.mpr ⟨ih _, ?_, fun p hp q hq => ?_⟩
      · split <;> simp
      · have hinner := d.mem_spans_bounds hp
        split at hq
        · rw [List.mem_singleton.mp hq]
          show p.2 < i + _ + 1
          omega
        · cases hq

/-- Every marked parenthesis is recorded. -/
theorem exists_mem_spans (d : Derivation phrase ts f) (i : Nat) {k : Nat} {t : Token}
    (ht : ts[k]? = some t) (hmarked : t.Marked marker) : ∃ j, (i + k, j) ∈ d.spans marker i := by
  induction d generalizing i k with
  | operand d ih => exact ih i ht
  | @compound tier op lexeme ts us f g hop d e ihd ihe =>
      rw [List.getElem?_append] at ht
      split at ht
      · obtain ⟨j, hj⟩ := ihd i ht
        exact ⟨j, List.mem_append_left _ hj⟩
      · next hk =>
          cases hrest : k - ts.length with
          | zero =>
              rw [hrest] at ht
              cases ht
              cases hmarked.1
          | succ n =>
              rw [hrest] at ht
              obtain ⟨j, hj⟩ := ihe (i + ts.length + 1) ht
              have hplace : i + k = i + ts.length + 1 + n := by omega
              exact ⟨j, List.mem_append_right _ (hplace ▸ hj)⟩
  | literal lexeme | var lexeme =>
      cases k with
      | zero => cases ht; cases hmarked.1
      | succ n => cases ht
  | negation d ih =>
      cases k with
      | zero => cases ht; cases hmarked.1
      | succ n =>
          obtain ⟨j, hj⟩ := ih (i + 1) ht
          have hplace : i + (n + 1) = i + 1 + n := by omega
          exact ⟨j, hplace ▸ hj⟩
  | @group left right ts f d ih =>
      cases k with
      | zero =>
          cases ht
          refine ⟨i + ts.length + 1, List.mem_append_right _ ?_⟩
          rw [if_pos hmarked]
          exact List.mem_cons_self
      | succ n =>
          rw [List.getElem?_cons_succ, List.getElem?_append] at ht
          split at ht
          · obtain ⟨j, hj⟩ := ih (i + 1) ht
            have hplace : i + (n + 1) = i + 1 + n := by omega
            exact ⟨j, List.mem_append_left _ (hplace ▸ hj)⟩
          · have hclose := List.mem_singleton.mp (List.mem_of_getElem? ht)
            rw [hclose] at hmarked
            cases hmarked.1

end Derivation

namespace Statement

/-- The sub-expressions of a statement that was read are its marked groups, one for each opening
parenthesis that carries the marker, in the order of the parentheses that close them. Each is a part
of the root, and it is the root that the tokens in the group have when they are read alone. -/
theorem parse_records_groups {o : ParseOptions} {text : Text} {s : Statement}
    (h : parse o text = .ok s) :
    ∃ (ts : List Token) (spans : List (Nat × Nat)), Token.lex o.marker text = .ok ts ∧
      (∀ i t, ts[i]? = some t → t.Marked o.marker → ∃! j, Token.Matches ts i j) ∧
      (∀ i j, (i, j) ∈ spans ↔
        Token.Matches ts i j ∧ ∃ t, ts[i]? = some t ∧ t.Marked o.marker) ∧
      spans.Pairwise (fun p q => p.2 < q.2) ∧
      List.Forall₂ (fun p g => (∃ path, s.root.at? path = some g) ∧
        ∀ text', ∃ s', ofTokens o text' (Token.between ts p.1 p.2) = .ok s' ∧ s'.root = g)
        spans s.subExpressions := by
  obtain ⟨ts, hlex, f, d, hfit, rfl⟩ := parse_eq_ok_iff.mp h
  have hencloses : List.Forall₂ (Derivation.Encloses o.marker ts f d.nesting)
      (d.spans o.marker 0) (d.marks o.marker) := by
    simpa using @Derivation.forall₂_encloses o.marker _ _ _ d [] []
  have hspans : ∀ p ∈ d.spans o.marker 0, Token.Matches ts p.1 p.2 ∧
      ∃ t, ts[p.1]? = some t ∧ t.Marked o.marker :=
    ((List.forall₂_and_left _ _).mp (hencloses.imp fun p g hg =>
      ⟨⟨hg.isMatch, hg.marked⟩, hg⟩)).1
  have hrecorded : ∀ i t, ts[i]? = some t → t.Marked o.marker →
      ∃ j, (i, j) ∈ d.spans o.marker 0 := by
    intro i t ht hmarked
    obtain ⟨j, hj⟩ := d.exists_mem_spans 0 ht hmarked
    exact ⟨j, Nat.zero_add i ▸ hj⟩
  refine ⟨ts, d.spans o.marker 0, hlex, fun i t ht hmarked => ?_, fun i j => ⟨hspans (i, j), ?_⟩,
    d.pairwise_spans 0, hencloses.imp fun p g hg => ⟨hg.part, fun text' => ?_⟩⟩
  · obtain ⟨j, hj⟩ := hrecorded i t ht hmarked
    exact ⟨j, (hspans _ hj).1, fun k hk => hk.unique (hspans _ hj).1⟩
  · rintro ⟨hmatch, t, ht, hmarked⟩
    obtain ⟨k, hk⟩ := hrecorded i t ht hmarked
    rwa [hmatch.unique (hspans _ hk).1]
  · obtain ⟨path, hpath⟩ := hg.part
    obtain ⟨e, hnesting⟩ := hg.derives
    exact ⟨_, ofTokens_eq_ok_iff.mpr
      ⟨g, e, ⟨Nat.le_trans hnesting hfit.1, hfit.2.of_at? hpath⟩, rfl⟩, rfl⟩

theorem parse_records_nested_groups :
    ∃ (s : Statement) (ts : List Token) (spans : List (Nat × Nat)),
      parse {} "~*((p|q)&*(r)->t)".toList = .ok s ∧
      Token.lex (some '*') "~*((p|q)&*(r)->t)".toList = .ok ts ∧
      spans.Pairwise (fun p q => p.2 < q.2) ∧
      List.Forall₂ (fun p g => Token.Matches ts p.1 p.2 ∧
        ∃ s', ofTokens {} [] (Token.between ts p.1 p.2) = .ok s' ∧ s'.root = g) spans
        [.var ['r'] ['r'], .binary .implies ['-', '>'] (.binary .and ['&']
          (.binary .nand ['|'] (.var ['p'] ['p']) (.var ['q'] ['q'])) (.var ['r'] ['r']))
          (.literal ['t'])] := by
  let inner : Formula := .var ['r'] ['r']
  let outer : Formula := .binary .implies ['-', '>'] (.binary .and ['&']
    (.binary .nand ['|'] (.var ['p'] ['p']) (.var ['q'] ['q'])) inner) (.literal ['t'])
  let s : Statement := ⟨"~*((p|q)&*(r)->t)".toList, .not ['~'] outer, [['p'], ['q'], ['r']],
    [inner, outer]⟩
  have hparse : parse {} "~*((p|q)&*(r)->t)".toList = .ok s := by decide +kernel
  obtain ⟨ts, spans, hlex, -, hspans, horder, hgroups⟩ := parse_records_groups hparse
  refine ⟨s, ts, spans, hparse, hlex, horder, (List.forall₂_and_left _ _).mpr
    ⟨fun p hp => ((hspans p.1 p.2).mp hp).1, hgroups.imp fun p g hg => hg.2 []⟩⟩

end Statement

end Sentential
