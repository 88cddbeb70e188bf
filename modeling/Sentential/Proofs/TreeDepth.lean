import Mathlib.Control.Monad.Basic
import Sentential.Proofs.Precedence
import Sentential.Proofs.Words

/-!
# How deep an accepted formula is

The limit on the depth of compounds is checked where a compound is built and nowhere else. A
formula that begins with negations is therefore only limited from the compound on that they stand
before: `Formula.core` is what the outer negations negate, its depth keeps the limit, and each of
the outer negations adds one to it. How many of them there are is a matter of the other limit,
which counts a negation and a group alike; and since a negation can only stand before a compound in
a group, the two limits together bound the depth of every formula.

Hence the depth of a formula keeps the limit on compounds by itself in one case only, where the
limit on nesting leaves no room for a negation before a group and the limit on compounds does for
one before a variable. For all other options there is a text that shows the opposite: a negated
conjunction of as many variables as the limit allows, or a negated variable where it allows
nothing else.
-/

namespace Sentential

namespace Formula

/-- The negations with which the formula begins. -/
def negations : Formula → Nat
  | not _ f => f.negations + 1
  | literal _ | var _ _ | binary _ _ _ _ => 0

/-- What the negations with which the formula begins negate. -/
def core : Formula → Formula
  | not _ f => f.core
  | literal lexeme => literal lexeme
  | var lexeme name => var lexeme name
  | binary op lexeme f g => binary op lexeme f g

theorem depth_eq_negations_add (f : Formula) : f.depth = f.negations + f.core.depth := by
  induction f with
  | literal lexeme => rfl
  | var lexeme name => rfl
  | not lexeme f ih =>
      rw [depth, negations, core, ih]
      omega
  | binary op lexeme f g _ _ => exact (Nat.zero_add _).symm

theorem depth_core_le {limit : Nat} (hlimit : 0 < limit) {f : Formula}
    (h : f.CompoundsWithin limit) : f.core.depth ≤ limit := by
  induction f with
  | literal lexeme => exact hlimit
  | var lexeme name => exact hlimit
  | not lexeme f ih => exact ih (compoundsWithin_not.mp h)
  | binary op lexeme f g _ _ => exact (compoundsWithin_binary.mp h).1

end Formula

namespace Derivation

variable {phrase : Phrase} {ts : List Token} {f : Formula}

theorem negations_le_nesting (d : Derivation phrase ts f) : f.negations ≤ d.nesting := by
  induction d with
  | operand d ih => exact ih
  | compound h d e _ _ => exact Nat.zero_le _
  | literal lexeme => exact Nat.zero_le _
  | var lexeme => exact Nat.zero_le _
  | negation d ih => exact Nat.succ_le_succ ih
  | group d ih => exact Nat.le_succ_of_le ih

/-- Before a compound, negations need a group around it. -/
theorem negations_lt_nesting (d : Derivation phrase ts f) :
    1 < f.core.depth → phrase = .factor ∨ 0 < f.negations → f.negations < d.nesting := by
  induction d with
  | operand d ih =>
      intro hcore h
      exact ih hcore (.inr (h.resolve_left nofun))
  | compound h d e _ _ => exact fun _ h => absurd (h.resolve_left nofun) (Nat.lt_irrefl 0)
  | literal lexeme => exact fun hcore => absurd hcore (Nat.lt_irrefl 1)
  | var lexeme => exact fun hcore => absurd hcore (Nat.lt_irrefl 1)
  | negation d ih => exact fun hcore _ => Nat.succ_lt_succ (ih hcore (.inl rfl))
  | @group left right ts f d ih =>
      intro hcore _
      rcases Nat.eq_zero_or_pos f.negations with hzero | hpos
      · rw [hzero]
        exact Nat.succ_pos _
      · exact Nat.lt_succ_of_lt (ih hcore (.inr hpos))

/-- The depth that both limits together allow. -/
theorem depth_le {o : ParseOptions} (d : Derivation phrase ts f) (hfit : d.Fits o 0) :
    f.depth ≤ max (o.maxNesting + 1) (o.maxTreeDepth + o.maxNesting - 1) := by
  have hnesting : d.nesting ≤ o.maxNesting := hfit.1
  have hcore := f.depth_core_le o.maxTreeDepth_pos hfit.2
  have hpos := o.maxNesting_pos
  rw [f.depth_eq_negations_add]
  by_cases hleaf : 1 < f.core.depth
  · rcases Nat.eq_zero_or_pos f.negations with hzero | hneg
    · omega
    · have := d.negations_lt_nesting hleaf (.inr hneg)
      omega
  · have := d.negations_le_nesting
    omega

theorem depth_le_of_mem_marks {marker : Option Char} (d : Derivation phrase ts f) {g : Formula} :
    g ∈ d.marks marker → g.depth ≤ f.depth := by
  induction d with
  | operand d ih => exact ih
  | compound h d e ihd ihe =>
      intro hg
      rcases List.mem_append.mp hg with hg | hg
      · exact Nat.le_succ_of_le (Nat.le_trans (ihd hg) (Nat.le_max_left _ _))
      · exact Nat.le_succ_of_le (Nat.le_trans (ihe hg) (Nat.le_max_right _ _))
  | literal lexeme => exact fun hg => absurd hg List.not_mem_nil
  | var lexeme => exact fun hg => absurd hg List.not_mem_nil
  | negation d ih => exact fun hg => Nat.le_succ_of_le (ih hg)
  | group d ih =>
      intro hg
      rcases List.mem_append.mp hg with hg | hg
      · exact ih hg
      · rw [recorded] at hg
        split at hg
        · exact Nat.le_of_eq (congrArg Formula.depth (List.mem_singleton.mp hg))
        · exact absurd hg List.not_mem_nil

/-! ## Formulas that are as deep as they may be

The two bounds are reached by negating a variable as often as the limit on nesting allows, and by
negating, as often as it allows beside the group, a conjunction as deep as the other limit
allows. -/

/-- The tokens of a conjunction with `n` connectives. -/
def conjunction : Nat → List Token
  | 0 => [⟨.var, ['p']⟩]
  | n + 1 => conjunction n ++ [⟨.connective .and, ['&']⟩, ⟨.var, ['p']⟩]

/-- The tokens behind `n` negations. -/
def negated (n : Nat) (ts : List Token) : List Token :=
  List.replicate n ⟨.negation, ['!']⟩ ++ ts

theorem exists_conjunction (n : Nat) :
    ∃ f, ∃ d : Derivation (.expression .tight) (conjunction n) f,
      f.depth = n + 1 ∧ d.nesting = 0 := by
  induction n with
  | zero => exact ⟨_, @operand .tight _ _ (.var ['p']), rfl, rfl⟩
  | succ n ih =>
      obtain ⟨f, d, hdepth, hnesting⟩ := ih
      refine ⟨_, @compound .tight .and ['&'] _ _ _ _ (by decide) d (.var ['p']), ?_, ?_⟩
      · rw [Formula.depth, hdepth, Formula.depth]
        omega
      · show max d.nesting 0 = 0
        rw [hnesting, Nat.max_self]

theorem exists_negated (n : Nat) (d : Derivation .factor ts f) :
    ∃ g, ∃ e : Derivation .factor (negated n ts) g,
      g.depth = n + f.depth ∧ e.nesting = n + d.nesting ∧
        ∀ limit, f.CompoundsWithin limit → g.CompoundsWithin limit := by
  induction n with
  | zero => exact ⟨f, d, (Nat.zero_add _).symm, (Nat.zero_add _).symm, fun _ h => h⟩
  | succ n ih =>
      obtain ⟨g, e, hdepth, hnesting, hwithin⟩ := ih
      refine ⟨_, @negation ['!'] _ _ e, ?_, ?_, fun limit h => ?_⟩
      · rw [Formula.depth, hdepth]
        omega
      · show e.nesting + 1 = n + 1 + d.nesting
        omega
      · exact Formula.compoundsWithin_not.mpr (hwithin limit h)

theorem plain_negated {marker : Option Char} {n : Nat} (h : ∀ t ∈ ts, t.Plain marker) :
    ∀ t ∈ negated n ts, t.Plain marker := by
  intro t ht
  rcases List.mem_append.mp ht with hneg | hts
  · rw [List.eq_of_mem_replicate hneg]
    exact Token.plain_of_none marker (by decide)
  · exact h t hts

theorem plain_conjunction (marker : Option Char) (n : Nat) :
    ∀ t ∈ conjunction n, t.Plain marker := by
  have hvar : Token.Plain marker ⟨.var, ['p']⟩ := Token.plain_of_none marker (by decide)
  have hand : Token.Plain marker ⟨.connective .and, ['&']⟩ :=
    Token.plain_of_none marker (by decide)
  induction n with
  | zero => exact List.forall_mem_singleton.mpr hvar
  | succ n ih =>
      intro t ht
      rcases List.mem_append.mp ht with hts | hts
      · exact ih t hts
      · exact List.forall_mem_cons.mpr ⟨hand, List.forall_mem_singleton.mpr hvar⟩ t hts

theorem plain_group {marker : Option Char} (h : ∀ t ∈ ts, t.Plain marker) :
    ∀ t ∈ ⟨.openParen, ['(']⟩ :: (ts ++ [⟨.closeParen, [')']⟩]), Token.Plain marker t := by
  have hopen : Token.Plain marker ⟨.openParen, ['(']⟩ :=
    Token.plain_of_none marker (by decide)
  have hclose : Token.Plain marker ⟨.closeParen, [')']⟩ :=
    Token.plain_of_none marker (by decide)
  refine List.forall_mem_cons.mpr ⟨hopen, fun t ht => ?_⟩
  rcases List.mem_append.mp ht with hts | hts
  · exact h t hts
  · rw [List.mem_singleton.mp hts]
    exact hclose

end Derivation

namespace Statement

theorem exists_parse_of_factor {o : ParseOptions} {ts : List Token} {f : Formula}
    (hplain : ∀ t ∈ ts, t.Plain o.marker) (d : Derivation .factor ts f) (hfit : d.Fits o 0) :
    ∃ text s, parse o text = .ok s ∧ s.root = f :=
  ⟨Token.spelled ts, (exists_root_iff (Token.lex_spelled hplain)).mpr
    ⟨@Derivation.ofFactor .loose _ _ d, hfit⟩⟩

theorem depth_le_of_parse {o : ParseOptions} {text : Text} {s : Statement}
    (h : parse o text = .ok s) {f : Formula} (hf : f ∈ s.root :: s.subExpressions) :
    f.depth ≤ max (o.maxNesting + 1) (o.maxTreeDepth + o.maxNesting - 1) := by
  obtain ⟨ts, -, g, d, hfit, rfl⟩ := parse_eq_ok_iff.mp h
  rcases List.mem_cons.mp hf with rfl | hf
  · exact d.depth_le hfit
  · exact Nat.le_trans (d.depth_le_of_mem_marks hf) (d.depth_le hfit)

/-- Some statement is one deeper than the limit on nesting. -/
theorem exists_parse_depth_leaf (o : ParseOptions) :
    ∃ text s, parse o text = .ok s ∧ s.root.depth = o.maxNesting + 1 := by
  obtain ⟨f, d, hdepth, hnesting, hwithin⟩ := Derivation.exists_negated o.maxNesting (.var ['p'])
  have hplain : ∀ t ∈ Derivation.conjunction 0, t.Plain o.marker :=
    Derivation.plain_conjunction o.marker 0
  have hfit : d.Fits o 0 :=
    ⟨Nat.le_of_eq hnesting, hwithin _ (Formula.compoundsWithin_var _ _ _)⟩
  obtain ⟨text, s, hs, hroot⟩ :=
    exists_parse_of_factor (Derivation.plain_negated hplain) d hfit
  exact ⟨text, s, hs, by rw [hroot, hdepth]; rfl⟩

/-- Some statement is as deep as both limits together allow for compounds in a group. -/
theorem exists_parse_depth_group (o : ParseOptions) :
    ∃ text s, parse o text = .ok s ∧ s.root.depth = o.maxTreeDepth + o.maxNesting - 1 := by
  have hnest := o.maxNesting_pos
  have htree := o.maxTreeDepth_pos
  obtain ⟨f, d, hdepth, hnesting⟩ := Derivation.exists_conjunction (o.maxTreeDepth - 1)
  let group := @Derivation.group ['('] [')'] _ _
    (@Derivation.operand .loose _ _ (@Derivation.operand .middle _ _ d))
  have hgroup : group.nesting = 1 := congrArg (· + 1) hnesting
  obtain ⟨g, e, hgdepth, hgnesting, hwithin⟩ :=
    Derivation.exists_negated (o.maxNesting - 1) group
  have hfit : e.Fits o 0 := by
    refine ⟨?_, hwithin _ (f.compoundsWithin_depth ?_)⟩ <;> omega
  obtain ⟨text, s, hs, hroot⟩ := exists_parse_of_factor
    (Derivation.plain_negated (Derivation.plain_group (Derivation.plain_conjunction _ _))) e hfit
  refine ⟨text, s, hs, ?_⟩
  rw [hroot, hgdepth]
  omega

/-- The limit on compounds is a limit on all formulas for those options only that leave no room
for a negation before a compound, and room for one before a variable. Under any options it is a
limit on what the outer negations of a root negate, and the root keeps it as well if and only if
there are no more of them than that leaves. -/
theorem depth_le_maxTreeDepth_iff (o : ParseOptions) :
    ((∀ text s, parse o text = .ok s → s.root.depth ≤ o.maxTreeDepth) ↔
      o.maxNesting = 1 ∧ 2 ≤ o.maxTreeDepth) ∧
    ∀ text s, parse o text = .ok s →
      s.root.core.depth ≤ o.maxTreeDepth ∧
      (s.root.depth ≤ o.maxTreeDepth ↔
        s.root.negations ≤ o.maxTreeDepth - s.root.core.depth) := by
  refine ⟨⟨fun h => ?_, fun ⟨hnest, htree⟩ text s hs => ?_⟩, fun text s hs => ?_⟩
  · obtain ⟨text, s, hs, hdepth⟩ := exists_parse_depth_leaf o
    obtain ⟨text', s', hs', hdepth'⟩ := exists_parse_depth_group o
    have hleaf := h text s hs
    have hgroup := h text' s' hs'
    have hpos := o.maxNesting_pos
    omega
  · obtain ⟨ts, d, hfit⟩ := exists_derivation_of_parse hs
    have hle := d.depth_le hfit
    omega
  · obtain ⟨ts, d, hfit⟩ := exists_derivation_of_parse hs
    have hcore := s.root.depth_core_le o.maxTreeDepth_pos hfit.2
    have hsum := s.root.depth_eq_negations_add
    exact ⟨hcore, by omega⟩

theorem depth_negated_conjunction :
    ∃ o s, o.maxTreeDepth = 2 ∧ parse o "not (p and q)".toList = .ok s ∧
      ¬ s.root.depth ≤ o.maxTreeDepth :=
  ⟨{ maxTreeDepth := 2 }, ⟨"not (p and q)".toList,
    .not "not".toList (.binary .and "and".toList (.var ['p'] ['p']) (.var ['q'] ['q'])),
    [['p'], ['q']], []⟩, rfl, by decide +kernel, by decide⟩

end Statement

end Sentential
