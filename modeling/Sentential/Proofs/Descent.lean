import Sentential.Proofs.Grammar
import Sentential.Statement.Parser

/-!
# The descent reads exactly the derivations

Four functions call each other: an expression reads an operand and then its chain, a chain reads
further operands, a factor reads a negated factor or the expression in a group. Here they are seen
as one function on phrases, with the chain beside it, and everything about them goes through one
induction: on the tokens that are left and, where a call leaves them as they are, on the tier.

A successful reading has done four things to the state, and `ParseState.after` says all of them:
the tokens are gone, the position has moved past them, their names have been met and the marked
groups among them recorded. What comes out is `read_eq_ok_iff`: a phrase is read as a formula
exactly when the next tokens have a derivation for it that fits both limits, and no connective
follows that would have been read as well. Nothing else in the theory of the parser opens the four
functions to learn what they accept.
-/

namespace Sentential

/-! ## The state after a stretch of tokens -/

namespace ParseState

/-- The names that are known once a token has been read. -/
def learn (names : List Text) (t : Token) : List Text :=
  if t.kind = .var && !names.contains t.lexeme then names ++ [t.lexeme] else names

/-- The state in which `ts` have been read, `rest` is left, and `marked` have been recorded. -/
def after (s : ParseState) (ts rest : List Token) (marked : List Formula) : ParseState :=
  ⟨rest, s.position + ts.length, s.nesting, ts.foldl learn s.names, s.marked ++ marked⟩

theorem after_after (s : ParseState) (ts us mid rest : List Token) (fs gs : List Formula) :
    (s.after ts mid fs).after us rest gs = s.after (ts ++ us) rest (fs ++ gs) := by
  simp [after, Nat.add_assoc]

theorem leave_after_enter (s : ParseState) (ts rest : List Token) (fs : List Formula) :
    (s.enter.after ts rest fs).leave = s.after ts rest fs := rfl

theorem after_nil {s : ParseState} {rest : List Token} (h : s.rest = rest) :
    s.after [] rest [] = s := by
  subst h
  simp [after]

theorem advance_eq_after {s : ParseState} {t : Token} {rest : List Token}
    (h : s.rest = t :: rest) (ht : t.kind ≠ .var) : s.advance = s.after [t] rest [] := by
  simp [advance, after, learn, h, ht]

theorem meet_advance_eq_after {s : ParseState} {t : Token} {rest : List Token}
    (h : s.rest = t :: rest) (ht : t.kind = .var) :
    s.advance.meet t.lexeme = s.after [t] rest [] := by
  by_cases hn : t.lexeme ∈ s.names
  · simp [meet, advance, after, learn, h, ht, hn]
  · simp [meet, advance, after, learn, h, ht, hn]

theorem mark_after (s : ParseState) (ts rest : List Token) (fs : List Formula)
    (marker : Option Char) (paren : Text) (f : Formula) :
    (s.after ts rest fs).mark marker paren f =
      s.after ts rest (fs ++ recorded marker paren f) := by
  unfold mark recorded
  split <;> simp [after]

end ParseState

/-- The next token, if it is a connective, is of no lower rank: a phrase of that rank ends here. -/
def LooseFrom (rank : Nat) (ts : List Token) : Prop :=
  ∀ op lexeme us, ts = ⟨.connective op, lexeme⟩ :: us → rank ≤ op.tier.rank

theorem LooseFrom.mono {m n : Nat} {ts : List Token} (h : LooseFrom n ts) (hle : m ≤ n) :
    LooseFrom m ts :=
  fun op lexeme us hts => Nat.le_trans hle (h op lexeme us hts)

theorem looseFrom_nil (rank : Nat) : LooseFrom rank [] :=
  fun _ _ _ h => nomatch h

theorem looseFrom_of_ne {rank : Nat} {t : Token} {ts : List Token}
    (h : ∀ op, t.kind ≠ .connective op) : LooseFrom rank (t :: ts) := by
  rintro op lexeme us heq
  cases heq
  exact absurd rfl (h op)

theorem looseFrom_connective {op : Connective} {lexeme : Text} {ts : List Token} :
    LooseFrom op.tier.rank (⟨.connective op, lexeme⟩ :: ts) := by
  rintro op' lexeme' us heq
  cases heq
  exact Nat.le_refl _

namespace Tier

theorem rank_inj {tier tier' : Tier} (h : tier.rank = tier'.rank) : tier = tier' := by
  cases tier <;> cases tier' <;> simp_all [rank]

end Tier

namespace Derivation

variable {o : ParseOptions} {outer : Nat}

/-- The limits admit the derivation where `outer` negations and groups are open around it. -/
def Fits {phrase : Phrase} {ts : List Token} {f : Formula} (d : Derivation phrase ts f)
    (o : ParseOptions) (outer : Nat) : Prop :=
  d.nesting ≤ o.maxNesting - outer ∧ f.CompoundsWithin o.maxTreeDepth

theorem fits_compound {tier : Tier} {op : Connective} {lexeme : Text} {ts us : List Token}
    {f g : Formula} {h : op ∈ tier.connectives} {d : Derivation (.expression tier) ts f}
    {e : Derivation tier.operand us g} :
    (@compound tier op lexeme ts us f g h d e).Fits o outer ↔
      d.Fits o outer ∧ e.Fits o outer ∧
        (Formula.binary op lexeme f g).depth ≤ o.maxTreeDepth := by
  simp only [Fits, nesting, Formula.compoundsWithin_binary, Nat.max_le]
  constructor
  · rintro ⟨⟨hd, he⟩, hdepth, hf, hg⟩
    exact ⟨⟨hd, hf⟩, ⟨he, hg⟩, hdepth⟩
  · rintro ⟨⟨hd, hf⟩, ⟨he, hg⟩, hdepth⟩
    exact ⟨⟨hd, he⟩, hdepth, hf, hg⟩

theorem fits_negation {lexeme : Text} {ts : List Token} {f : Formula}
    {d : Derivation .factor ts f} :
    (@negation lexeme ts f d).Fits o outer ↔
      outer + 1 ≤ o.maxNesting ∧ d.Fits o (outer + 1) := by
  simp only [Fits, nesting, Formula.compoundsWithin_not]
  constructor
  · rintro ⟨hd, hf⟩
    exact ⟨by omega, by omega, hf⟩
  · rintro ⟨ho, hd, hf⟩
    exact ⟨by omega, hf⟩

theorem fits_group {left right : Text} {ts : List Token} {f : Formula}
    {d : Derivation (.expression .loose) ts f} :
    (@group left right ts f d).Fits o outer ↔
      outer + 1 ≤ o.maxNesting ∧ d.Fits o (outer + 1) := by
  simp only [Fits, nesting]
  constructor
  · rintro ⟨hd, hf⟩
    exact ⟨by omega, by omega, hf⟩
  · rintro ⟨ho, hd, hf⟩
    exact ⟨by omega, hf⟩

end Derivation

namespace Parser

/-! ## One function on phrases -/

/-- Reads a phrase. -/
def read (o : ParseOptions) : Phrase → ParseState → Except CompileError (Formula × ParseState)
  | .expression tier => expression o tier
  | .factor => factor o

theorem operand_eq_read (o : ParseOptions) (tier : Tier) (s : ParseState) :
    operand o tier s = read o tier.operand s := by
  rw [operand_eq]
  cases tier <;> rfl

theorem length_rest_of_read {o : ParseOptions} {phrase : Phrase} {s s' : ParseState}
    {f : Formula} (h : read o phrase s = .ok (f, s')) : s'.rest.length < s.rest.length := by
  cases phrase with
  | expression tier => exact length_rest_of_expression h
  | factor => exact length_rest_of_factor h

/-- The induction behind every fact about the descent: what holds of a call may be taken for granted
of the calls it makes. -/
theorem descent {o : ParseOptions} {P : Phrase → ParseState → Prop}
    {C : Tier → Formula → ParseState → Prop}
    (expression : ∀ tier s, P tier.operand s →
      (∀ f s₁, read o tier.operand s = .ok (f, s₁) → C tier f s₁) → P (.expression tier) s)
    (chain : ∀ tier left s,
      (∀ op lexeme ts, s.rest = ⟨.connective op, lexeme⟩ :: ts → P tier.operand s.advance ∧
        ∀ right s₁, read o tier.operand s.advance = .ok (right, s₁) →
          C tier (.binary op lexeme left right) s₁) → C tier left s)
    (factor : ∀ s, (∀ t ts, s.rest = t :: ts → ∀ phrase, P phrase s.advance.enter) →
      P .factor s) :
    (∀ phrase s, P phrase s) ∧ ∀ tier left s, C tier left s := by
  have all : ∀ (n : Nat) (s : ParseState), s.rest.length = n →
      (∀ phrase, P phrase s) ∧ ∀ tier left, C tier left s := by
    intro n
    induction n using Nat.strongRecOn with
    | ind n ih =>
        intro s hn
        have ih' : ∀ s' : ParseState, s'.rest.length < s.rest.length →
            (∀ phrase, P phrase s') ∧ ∀ tier left, C tier left s' :=
          fun s' hlt => ih _ (hn ▸ hlt) s' rfl
        have hchain : ∀ tier left, C tier left s := by
          intro tier left
          refine chain tier left s fun op lexeme ts hs => ?_
          have hadv := ParseState.length_rest_advance hs
          exact ⟨(ih' _ hadv).1 _, fun right s₁ h =>
            (ih' s₁ (Nat.lt_trans (length_rest_of_read h) hadv)).2 _ _⟩
        have hfactor : P .factor s :=
          factor s fun t ts hs phrase =>
            (ih' s.advance.enter (ParseState.length_rest_advance hs)).1 phrase
        -- the three tiers read the same tokens, the tightest first
        have hexpr : ∀ tier, P tier.operand s → P (.expression tier) s :=
          fun tier hop => expression tier s hop fun f s₁ h =>
            (ih' s₁ (length_rest_of_read h)).2 tier f
        have htight := hexpr .tight hfactor
        have hmiddle := hexpr .middle htight
        refine ⟨fun phrase => ?_, hchain⟩
        match phrase with
        | .factor => exact hfactor
        | .expression .tight => exact htight
        | .expression .middle => exact hmiddle
        | .expression .loose => exact hexpr .loose hmiddle
  exact ⟨fun phrase s => (all _ s rfl).1 phrase, fun tier left s => (all _ s rfl).2 tier left⟩

/-! ## Every reading has a derivation

For a chain the statement is about what it adds: whatever derivation the expression before it has,
the chain prolongs. -/

/-- The next tokens have a derivation for the formula, and reading them ends in `s'`. -/
def Reads (o : ParseOptions) (phrase : Phrase) (s : ParseState) (f : Formula) (s' : ParseState) :
    Prop :=
  ∃ ts rest, ∃ d : Derivation phrase ts f, s.rest = ts ++ rest ∧ d.Fits o s.nesting ∧
    LooseFrom phrase.rank rest ∧ s' = s.after ts rest (d.marks o.marker)

/-- The next tokens prolong every derivation of `left` to one for the formula, and reading them
ends in `s'`. -/
def Prolongs (o : ParseOptions) (tier : Tier) (left : Formula) (s : ParseState) (f : Formula)
    (s' : ParseState) : Prop :=
  ∀ ts (d : Derivation (.expression tier) ts left), d.Fits o s.nesting →
    ∃ us rest fs vs, ∃ e : Derivation (.expression tier) vs f, s.rest = us ++ rest ∧
      vs = ts ++ us ∧ e.Fits o s.nesting ∧ e.marks o.marker = d.marks o.marker ++ fs ∧
      LooseFrom (tier.rank + 1) rest ∧ s' = s.after us rest fs

theorem reads_expression {o : ParseOptions} {tier : Tier} {s s₁ s' : ParseState} {f g : Formula}
    (hf : Reads o tier.operand s f s₁) (hg : Prolongs o tier f s₁ g s') :
    Reads o (.expression tier) s g s' := by
  obtain ⟨ts, rest, d, hs, hd, -, rfl⟩ := hf
  obtain ⟨us, rest', fs, vs, e, hus, rfl, he, hmarks, hloose, rfl⟩ := hg ts (.operand d) hd
  refine ⟨ts ++ us, rest', e, ?_, he, hloose, ?_⟩
  · rw [hs, List.append_assoc, ← hus]
    rfl
  · rw [hmarks, ParseState.after_after]
    rfl

theorem prolongs_refl {o : ParseOptions} {tier : Tier} {left : Formula} {s : ParseState}
    (h : LooseFrom (tier.rank + 1) s.rest) : Prolongs o tier left s left s :=
  fun ts d hd => ⟨[], s.rest, [], ts, d, rfl, (List.append_nil ts).symm, hd,
    (List.append_nil _).symm, h, (ParseState.after_nil rfl).symm⟩

theorem prolongs_step {o : ParseOptions} {tier : Tier} {op : Connective} {lexeme : Text}
    {left right f : Formula} {s s₁ s' : ParseState} {ts : List Token}
    (hs : s.rest = ⟨.connective op, lexeme⟩ :: ts) (htier : op.tier = tier)
    (hright : Reads o tier.operand s.advance right s₁)
    (hdepth : (Formula.binary op lexeme left right).depth ≤ o.maxTreeDepth)
    (hf : Prolongs o tier (.binary op lexeme left right) s₁ f s') :
    Prolongs o tier left s f s' := by
  intro before d hd
  rw [ParseState.advance_eq_after hs (by simp)] at hright
  obtain ⟨us, rest, e, hus, he, -, rfl⟩ := hright
  have hfit : (Derivation.compound (Tier.mem_connectives.mpr htier) d e).Fits o s.nesting :=
    Derivation.fits_compound.mpr ⟨hd, he, hdepth⟩
  obtain ⟨ws, rest', fs, vs, k, hws, rfl, hk, hmarks, hloose, rfl⟩ := hf _ _ hfit
  have hrest : rest = ws ++ rest' := hws
  have hts : ts = us ++ rest := hus
  refine ⟨⟨.connective op, lexeme⟩ :: (us ++ ws), rest', e.marks o.marker ++ fs, _, k, ?_, ?_, hk,
    ?_, hloose, ?_⟩
  · rw [hs, hts, hrest]
    simp
  · simp
  · rw [hmarks, Derivation.marks, List.append_assoc]
  · rw [ParseState.after_after, ParseState.after_after]
    simp

theorem reads_literal {o : ParseOptions} {s : ParseState} {t : Token} {ts : List Token}
    (hs : s.rest = t :: ts) (ht : t.kind = .literal) :
    Reads o .factor s (.literal t.lexeme) s.advance := by
  obtain ⟨kind, lexeme⟩ := t
  cases ht
  refine ⟨[⟨.literal, lexeme⟩], ts, .literal lexeme, hs, ⟨Nat.zero_le _, by simp⟩,
    fun _ _ _ _ => Nat.zero_le _, ?_⟩
  exact ParseState.advance_eq_after hs (by simp)

theorem reads_var {o : ParseOptions} {s : ParseState} {t : Token} {ts : List Token}
    (hs : s.rest = t :: ts) (ht : t.kind = .var) :
    Reads o .factor s (.var t.lexeme t.lexeme) (s.advance.meet t.lexeme) := by
  obtain ⟨kind, lexeme⟩ := t
  cases ht
  refine ⟨[⟨.var, lexeme⟩], ts, .var lexeme, hs, ⟨Nat.zero_le _, by simp⟩,
    fun _ _ _ _ => Nat.zero_le _, ?_⟩
  exact ParseState.meet_advance_eq_after hs rfl

theorem reads_negation {o : ParseOptions} {s s₁ : ParseState} {t : Token} {ts : List Token}
    {f : Formula} (hs : s.rest = t :: ts) (ht : t.kind = .negation)
    (hlimit : s.nesting + 1 ≤ o.maxNesting) (hf : Reads o .factor s.advance.enter f s₁) :
    Reads o .factor s (.not t.lexeme f) s₁.leave := by
  obtain ⟨kind, lexeme⟩ := t
  cases ht
  rw [ParseState.advance_eq_after hs (by simp)] at hf
  obtain ⟨us, rest, d, hus, hd, hloose, rfl⟩ := hf
  have hts : ts = us ++ rest := hus
  refine ⟨⟨.negation, lexeme⟩ :: us, rest, .negation d, by rw [hs, hts]; rfl,
    Derivation.fits_negation.mpr ⟨hlimit, hd⟩, hloose, ?_⟩
  rw [ParseState.leave_after_enter, ParseState.after_after]
  rfl

theorem reads_group {o : ParseOptions} {s s₁ : ParseState} {t u : Token} {ts us : List Token}
    {f : Formula} (hs : s.rest = t :: ts) (ht : t.kind = .openParen)
    (hlimit : s.nesting + 1 ≤ o.maxNesting)
    (hf : Reads o (.expression .loose) s.advance.enter f s₁) (hu : s₁.rest = u :: us)
    (hclose : u.kind = .closeParen) :
    Reads o .factor s f (s₁.advance.leave.mark o.marker t.lexeme f) := by
  obtain ⟨kind, left⟩ := t
  obtain ⟨kind', right⟩ := u
  cases ht
  cases hclose
  rw [ParseState.advance_eq_after hs (by simp)] at hf
  rw [ParseState.advance_eq_after hu (by simp)]
  obtain ⟨vs, rest, d, hvs, hd, -, rfl⟩ := hf
  have hts : ts = vs ++ rest := hvs
  have hrest : rest = ⟨.closeParen, right⟩ :: us := hu
  refine ⟨⟨.openParen, left⟩ :: (vs ++ [⟨.closeParen, right⟩]), us, .group d, ?_,
    Derivation.fits_group.mpr ⟨hlimit, hd⟩, fun _ _ _ _ => Nat.zero_le _, ?_⟩
  · rw [hs, hts, hrest]
    simp
  · rw [ParseState.after_after, ParseState.leave_after_enter, ParseState.after_after,
      ParseState.mark_after]
    simp [Derivation.marks]

/-- Every successful reading, of a phrase or of a chain, has its derivation. -/
theorem reads_of_read (o : ParseOptions) :
    (∀ phrase s, ∀ f s', read o phrase s = .ok (f, s') → Reads o phrase s f s') ∧
      ∀ tier left s, LooseFrom tier.rank s.rest → ∀ f s', chain o tier left s = .ok (f, s') →
        Prolongs o tier left s f s' := by
  apply descent
  case expression =>
      intro tier s hop hch g s' h
      rw [read, expression_eq, operand_eq_read] at h
      split at h
      · cases h
      · next f s₁ hf =>
          have hr := hop f s₁ hf
          refine reads_expression hr (hch f s₁ hf ?_ g s' h)
          obtain ⟨ts, rest, d, -, -, hloose, rfl⟩ := hr
          exact hloose.mono (Nat.le_of_eq tier.rank_operand.symm)
  case chain =>
      intro tier left s ih hloose f s' h
      rw [chain_eq] at h
      split at h
      · next op lexeme ts hs =>
          split at h
          · next htier =>
              rw [operand_eq_read] at h
              split at h
              · cases h
              · next right s₁ hright =>
                  obtain ⟨hop, hstep⟩ := ih op lexeme ts hs
                  have hr := hop right s₁ hright
                  split at h
                  · cases h
                  · next hdepth =>
                      refine prolongs_step hs htier hr (Nat.le_of_not_gt hdepth)
                        (hstep right s₁ hright ?_ f s' h)
                      obtain ⟨us, rest, d, -, -, hloose', rfl⟩ := hr
                      exact hloose'.mono (Nat.le_of_eq tier.rank_operand.symm)
          · next htier =>
              cases h
              refine prolongs_refl fun op' lexeme' us hus => ?_
              rw [hs] at hus
              cases hus
              have hle := hloose op lexeme ts hs
              have hne : tier.rank ≠ op.tier.rank := fun heq => htier (Tier.rank_inj heq.symm)
              omega
      · next hnone =>
          cases h
          exact prolongs_refl fun op lexeme us hus => absurd hus (hnone op lexeme us)
  case factor =>
      intro s ih f s' h
      rw [read, factor_eq] at h
      split at h
      · cases h
      · next t ts hs =>
          have ih' := ih t ts hs
          split at h
          · next ht => cases h; exact reads_literal hs ht
          · next ht => cases h; exact reads_var hs ht
          · next ht =>
              split at h
              · cases h
              · next hlimit =>
                  split at h
                  · cases h
                  · next g s₁ hg =>
                      cases h
                      exact reads_negation hs ht (Nat.le_of_not_gt hlimit) (ih' .factor g s₁ hg)
          · next ht =>
              split at h
              · cases h
              · next hlimit =>
                  split at h
                  · cases h
                  · next g s₁ hg =>
                      split at h
                      · cases h
                      · next u us hu =>
                          split at h
                          · next hclose =>
                              cases h
                              exact reads_group hs ht (Nat.le_of_not_gt hlimit)
                                (ih' (.expression .loose) f s₁ hg) hu hclose
                          · cases h
          · cases h

/-! ## Every derivation that fits is read

An expression need not be at its end where its derivation is: the reader goes on with whatever
connective of the tier follows. So what a derivation of an expression guarantees is that the
reader gets to its chain with the formula in hand, and this is also what the left recursion of the
grammar asks of the induction. -/

/-- The reader comes, behind the phrase, to the state `s'` with the formula. -/
def Arrives (o : ParseOptions) : Phrase → ParseState → Formula → ParseState → Prop
  | .expression tier, s, f, s' =>
      LooseFrom tier.rank s'.rest → expression o tier s = chain o tier f s'
  | .factor, s, f, s' => factor o s = .ok (f, s')

theorem chain_of_looseFrom {o : ParseOptions} {tier : Tier} {left : Formula} {s : ParseState}
    (h : LooseFrom (tier.rank + 1) s.rest) : chain o tier left s = .ok (left, s) := by
  rw [chain_eq]
  split
  · next op lexeme ts hs =>
      have hle := h op lexeme ts hs
      split
      · next htier => rw [htier] at hle; omega
      · rfl
  · rfl

theorem read_of_arrives {o : ParseOptions} {phrase : Phrase} {s s' : ParseState} {f : Formula}
    (h : Arrives o phrase s f s') (hloose : LooseFrom phrase.rank s'.rest) :
    read o phrase s = .ok (f, s') := by
  cases phrase with
  | expression tier =>
      have heq : expression o tier s = chain o tier f s' := h (hloose.mono (Nat.le_succ _))
      rw [read, heq, chain_of_looseFrom hloose]
  | factor => exact h

theorem chain_step {o : ParseOptions} {tier : Tier} {op : Connective} {lexeme : Text}
    {left right : Formula} {s s₁ : ParseState} {ts : List Token}
    (hs : s.rest = ⟨.connective op, lexeme⟩ :: ts) (htier : op.tier = tier)
    (hright : read o tier.operand s.advance = .ok (right, s₁))
    (hdepth : (Formula.binary op lexeme left right).depth ≤ o.maxTreeDepth) :
    chain o tier left s = chain o tier (.binary op lexeme left right) s₁ := by
  rw [chain_eq, hs]
  simp only [if_pos htier]
  rw [operand_eq_read, hright]
  exact if_neg (Nat.not_lt.mpr hdepth)

theorem factor_negation {o : ParseOptions} {s s₁ : ParseState} {lexeme : Text} {ts : List Token}
    {f : Formula} (hs : s.rest = ⟨.negation, lexeme⟩ :: ts) (hlimit : s.nesting + 1 ≤ o.maxNesting)
    (hf : factor o s.advance.enter = .ok (f, s₁)) :
    factor o s = .ok (.not lexeme f, s₁.leave) := by
  rw [factor_eq, hs]
  simp only [if_neg (Nat.not_lt.mpr hlimit), hf]

theorem factor_group {o : ParseOptions} {s s₁ : ParseState} {left right : Text}
    {ts us : List Token} {f : Formula} (hs : s.rest = ⟨.openParen, left⟩ :: ts)
    (hlimit : s.nesting + 1 ≤ o.maxNesting)
    (hf : expression o .loose s.advance.enter = .ok (f, s₁))
    (hu : s₁.rest = ⟨.closeParen, right⟩ :: us) :
    factor o s = .ok (f, s₁.advance.leave.mark o.marker left f) := by
  rw [factor_eq, hs]
  simp only [if_neg (Nat.not_lt.mpr hlimit), hf, hu, if_true]

theorem arrives {o : ParseOptions} {phrase : Phrase} {ts : List Token} {f : Formula}
    (d : Derivation phrase ts f) : ∀ (s : ParseState) (rest : List Token), s.rest = ts ++ rest →
      d.Fits o s.nesting → Arrives o phrase s f (s.after ts rest (d.marks o.marker)) := by
  induction d with
  | @operand tier ts f d ih =>
      intro s rest hs hd hloose
      have hop : LooseFrom tier.operand.rank rest := by
        rw [tier.rank_operand]
        exact hloose
      rw [expression_eq, operand_eq_read, read_of_arrives (ih s rest hs hd) hop]
      rfl
  | @compound tier op lexeme ts us f g h d e ihd ihe =>
      intro s rest hs hfit hloose
      obtain ⟨hd, he, hdepth⟩ := Derivation.fits_compound.mp hfit
      have htier := Tier.mem_connectives.mp h
      -- the left operand leaves the reader at the connective, which its chain takes up
      have hleft := ihd s (⟨.connective op, lexeme⟩ :: (us ++ rest)) (by simpa using hs) hd
        (htier ▸ looseFrom_connective)
      have hadv : (s.after ts (⟨.connective op, lexeme⟩ :: (us ++ rest))
          (d.marks o.marker)).advance =
          s.after (ts ++ [⟨.connective op, lexeme⟩]) (us ++ rest) (d.marks o.marker) := by
        rw [ParseState.advance_eq_after rfl (by simp), ParseState.after_after, List.append_nil]
      have hop : LooseFrom tier.operand.rank rest := by
        rw [tier.rank_operand]
        exact hloose
      have hright := read_of_arrives (ihe (s.after (ts ++ [⟨.connective op, lexeme⟩])
        (us ++ rest) (d.marks o.marker)) rest rfl he) hop
      rw [← hadv] at hright
      rw [hleft, chain_step rfl htier hright hdepth, hadv, ParseState.after_after,
        List.append_assoc]
      rfl
  | literal lexeme =>
      intro s rest hs _
      rw [Arrives, factor_eq, hs]
      exact congrArg (fun s' => Except.ok (Formula.literal lexeme, s'))
        (ParseState.advance_eq_after hs (by simp))
  | var lexeme =>
      intro s rest hs _
      rw [Arrives, factor_eq, hs]
      exact congrArg (fun s' => Except.ok (Formula.var lexeme lexeme, s'))
        (ParseState.meet_advance_eq_after hs rfl)
  | @negation lexeme ts f d ih =>
      intro s rest hs hfit
      obtain ⟨hlimit, hd⟩ := Derivation.fits_negation.mp hfit
      have hadv := ParseState.advance_eq_after hs (by simp)
      have hf := ih s.advance.enter rest (by rw [hadv]; rfl) hd
      rw [Arrives, factor_negation hs hlimit hf, hadv, ParseState.leave_after_enter,
        ParseState.after_after]
      rfl
  | @group left right ts f d ih =>
      intro s rest hs hfit
      obtain ⟨hlimit, hd⟩ := Derivation.fits_group.mp hfit
      have hadv := ParseState.advance_eq_after hs (by simp)
      have hf := read_of_arrives (ih s.advance.enter (⟨.closeParen, right⟩ :: rest)
        (by rw [hadv]; simp [ParseState.enter, ParseState.after]) hd)
        (looseFrom_of_ne fun _ => by simp)
      rw [Arrives, factor_group hs hlimit hf rfl, hadv,
        ParseState.advance_eq_after rfl (by simp), ParseState.after_after,
        ParseState.leave_after_enter, ParseState.after_after, ParseState.mark_after]
      simp [Derivation.marks]

/-- What the descent accepts, at any place of any text: a phrase is read as a formula, and the
reading ends in a state, exactly when the next tokens derive the formula within the limits, no
connective follows that belongs to the phrase, and the state is the one behind those tokens. -/
theorem read_eq_ok_iff {o : ParseOptions} {phrase : Phrase} {s s' : ParseState} {f : Formula} :
    read o phrase s = .ok (f, s') ↔ Reads o phrase s f s' := by
  constructor
  · exact (reads_of_read o).1 phrase s f s'
  · rintro ⟨ts, rest, d, hs, hd, hloose, rfl⟩
    exact read_of_arrives (arrives d s rest hs hd) hloose

/-- Where the tokens that are left are those from the position on, they still are when a phrase has
been read. -/
theorem rest_of_read {o : ParseOptions} {phrase : Phrase} {tokens : List Token} {s s' : ParseState}
    {f : Formula} (h : read o phrase s = .ok (f, s')) (hs : s.rest = tokens.drop s.position) :
    s'.rest = tokens.drop s'.position := by
  obtain ⟨ts, rest, d, hrest, -, -, rfl⟩ := read_eq_ok_iff.mp h
  show rest = tokens.drop (s.position + ts.length)
  rw [← List.drop_drop, ← hs, hrest, List.drop_left]

theorem expression_eq_ok_iff {o : ParseOptions} {tier : Tier} {s s' : ParseState} {f : Formula} :
    expression o tier s = .ok (f, s') ↔ Reads o (.expression tier) s f s' :=
  @read_eq_ok_iff o (.expression tier) s s' f

end Parser

/-! ## Whole texts -/

/-- The statements that a list of tokens can be: one for each derivation that the limits admit. -/
theorem Statement.ofTokens_eq_ok_iff {o : ParseOptions} {text : Text} {ts : List Token}
    {st : Statement} :
    Statement.ofTokens o text ts = .ok st ↔
      ∃ f, ∃ d : Derivation (.expression .loose) ts f, d.Fits o 0 ∧
        st = ⟨text, f, Text.sortedSet (ts.foldl ParseState.learn []), d.marks o.marker⟩ := by
  constructor
  · intro h
    rw [ofTokens] at h
    split at h
    · cases h
    · next f s hf =>
        obtain ⟨us, rest, d, hus, hd, -, rfl⟩ := Parser.expression_eq_ok_iff.mp hf
        have hrest : ts = us ++ rest := hus
        split at h
        · next hnil =>
            cases h
            have hnil' : rest = [] := hnil
            rw [hnil', List.append_nil] at hrest
            subst hrest
            exact ⟨f, d, hd, rfl⟩
        · cases h
  · rintro ⟨f, d, hd, rfl⟩
    have hf : Parser.expression o .loose (.start ts) =
        .ok (f, (ParseState.start ts).after ts [] (d.marks o.marker)) :=
      Parser.expression_eq_ok_iff.mpr
        ⟨ts, [], d, (List.append_nil ts).symm, hd, looseFrom_nil _, rfl⟩
    rw [ofTokens, hf]
    rfl

end Sentential
