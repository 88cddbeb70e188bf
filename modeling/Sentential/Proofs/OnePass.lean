import Mathlib.Control.Monad.Basic
import Sentential.Proofs.Precedence

/-!
# Refusals in one pass

Why a text is refused can be told without a tree: one pass over the tokens, remembering whether an
operand or an operator has to come next and how many groups are open. The descent keeps both on its
call stack, spread over tiers, groups and negations, but at each of its calls they are plain to see.
Where a phrase is read an operand is due, and where a chain is read, or a group is to be closed, an
operator is.

So the pass and the descent are compared call by call. What a reading accepts has a derivation, and
over the tokens of a derivation the pass goes from one operand due to one operator due with as many
groups open as before; that is an induction on the derivation. What a reading refuses, the pass
refuses for the same reason at the same token, and that is the induction on the descent. Only
refusals for depth are no concern of the pass: it counts no negations, builds no compounds, and
would have gone on.
-/

namespace Sentential

/-- What the next token has to begin or to follow. -/
inductive Due where
  | operand
  | operator
  deriving DecidableEq, Repr

/-- Where the pass stands: what is due, how many groups are open, and which token is next. -/
structure Pass where
  due : Due
  groups : Nat
  position : Nat
  deriving DecidableEq, Repr

namespace Pass

def start : Pass := ⟨.operand, 0, 0⟩

/-- One token further. -/
def step (p : Pass) (t : Token) : Except CompileError Pass :=
  match p.due, t.kind with
  | .operand, .literal | .operand, .var => .ok ⟨.operator, p.groups, p.position + 1⟩
  | .operand, .negation => .ok ⟨.operand, p.groups, p.position + 1⟩
  | .operand, .openParen => .ok ⟨.operand, p.groups + 1, p.position + 1⟩
  | .operand, .connective _ | .operand, .closeParen => .error (.misplacedToken t p.position)
  | .operator, .connective _ => .ok ⟨.operand, p.groups, p.position + 1⟩
  | .operator, .closeParen =>
      if 0 < p.groups then .ok ⟨.operator, p.groups - 1, p.position + 1⟩
      else .error (.misplacedToken t p.position)
  | .operator, _ =>
      if 0 < p.groups then .error (.tokenMismatch .closeParen t p.position)
      else .error (.misplacedToken t p.position)

/-- Behind the last token. -/
def finish (p : Pass) : Except CompileError Unit :=
  match p.due with
  | .operand => .error (.unexpectedEnd p.position)
  | .operator => if 0 < p.groups then .error (.unexpectedEnd p.position) else .ok ()

/-- The whole pass over the tokens that are left. -/
def run : Pass → List Token → Except CompileError Unit
  | p, [] => p.finish
  | p, t :: ts =>
    match p.step t with
    | .error e => .error e
    | .ok q => q.run ts

/-! ## Over the tokens of a derivation -/

variable {p q : Pass} {t : Token} {ts : List Token} {e : CompileError}

theorem run_of_step (h : p.step t = .ok q) : p.run (t :: ts) = q.run ts := by
  rw [run, h]

theorem run_of_step_error (h : p.step t = .error e) : p.run (t :: ts) = .error e := by
  rw [run, h]

theorem run_derivation {phrase : Phrase} {us : List Token} {f : Formula}
    (d : Derivation phrase us f) : ∀ (k i : Nat) (rest : List Token),
      run ⟨.operand, k, i⟩ (us ++ rest) = run ⟨.operator, k, i + us.length⟩ rest := by
  induction d with
  | operand d ih => exact ih
  | @compound tier op lexeme us vs f g h d e ihd ihe =>
      intro k i rest
      calc run ⟨.operand, k, i⟩ (us ++ ⟨.connective op, lexeme⟩ :: vs ++ rest)
          = run ⟨.operand, k, i⟩ (us ++ (⟨.connective op, lexeme⟩ :: (vs ++ rest))) := by simp
        _ = run ⟨.operator, k, i + us.length⟩ (⟨.connective op, lexeme⟩ :: (vs ++ rest)) :=
            ihd k i _
        _ = run ⟨.operand, k, i + us.length + 1⟩ (vs ++ rest) := run_of_step rfl
        _ = run ⟨.operator, k, i + us.length + 1 + vs.length⟩ rest := ihe k _ rest
        _ = _ := by
            rw [List.length_append, List.length_cons]
            congr 2
            omega
  | literal lexeme => exact fun k i rest => run_of_step rfl
  | var lexeme => exact fun k i rest => run_of_step rfl
  | @negation lexeme us f d ih =>
      intro k i rest
      calc run ⟨.operand, k, i⟩ (⟨.negation, lexeme⟩ :: us ++ rest)
          = run ⟨.operand, k, i + 1⟩ (us ++ rest) := run_of_step rfl
        _ = run ⟨.operator, k, i + 1 + us.length⟩ rest := ih k _ rest
        _ = _ := by
            rw [List.length_cons]
            congr 2
            omega
  | @group left right us f d ih =>
      intro k i rest
      calc run ⟨.operand, k, i⟩ (⟨.openParen, left⟩ :: (us ++ [⟨.closeParen, right⟩]) ++ rest)
          = run ⟨.operand, k + 1, i + 1⟩ (us ++ [⟨.closeParen, right⟩] ++ rest) := run_of_step rfl
        _ = run ⟨.operand, k + 1, i + 1⟩ (us ++ (⟨.closeParen, right⟩ :: rest)) := by simp
        _ = run ⟨.operator, k + 1, i + 1 + us.length⟩ (⟨.closeParen, right⟩ :: rest) := ih _ _ _
        _ = run ⟨.operator, k, i + 1 + us.length + 1⟩ rest := run_of_step rfl
        _ = _ := by
            rw [List.length_cons, List.length_append, List.length_singleton]
            congr 2
            omega

/-! ## Where a phrase ends

Behind a loosest expression that the descent has finished no connective stands. In a group only the
closing parenthesis can follow, outside of every group nothing can. -/

theorem kind_ne_connective (h : LooseFrom (Phrase.expression .loose).rank (t :: ts)) :
    ∀ op, t.kind ≠ .connective op := by
  intro op hop
  obtain ⟨kind, lexeme⟩ := t
  have hrank : 3 ≤ op.tier.rank := h op lexeme ts (by rw [← hop])
  have hle := op.tier.rank_le
  omega

theorem step_unclosed {k i : Nat} (h : ∀ op, t.kind ≠ .connective op)
    (hclose : t.kind ≠ .closeParen) :
    step ⟨.operator, k + 1, i⟩ t = .error (.tokenMismatch .closeParen t i) := by
  cases hk : t.kind with
  | connective op => exact absurd hk (h op)
  | closeParen => exact absurd hk hclose
  | negation | openParen | literal | var => simp [step, hk]

theorem step_leftover {i : Nat} (h : ∀ op, t.kind ≠ .connective op) :
    step ⟨.operator, 0, i⟩ t = .error (.misplacedToken t i) := by
  cases hk : t.kind with
  | connective op => exact absurd hk (h op)
  | closeParen | negation | openParen | literal | var => simp [step, hk]

theorem step_misplaced {k i : Nat} (hliteral : t.kind ≠ .literal) (hvar : t.kind ≠ .var)
    (hnegation : t.kind ≠ .negation) (hopen : t.kind ≠ .openParen) :
    step ⟨.operand, k, i⟩ t = .error (.misplacedToken t i) := by
  cases hk : t.kind with
  | literal => exact absurd hk hliteral
  | var => exact absurd hk hvar
  | negation => exact absurd hk hnegation
  | openParen => exact absurd hk hopen
  | connective op => simp [step, hk]
  | closeParen => simp [step, hk]

end Pass

/-! ## What the descent refuses -/

/-- The refusal is for depth. -/
def CompileError.ForDepth (e : CompileError) : Prop :=
  ∃ limit position, e = .tooDeep limit position

namespace Parser

variable {o : ParseOptions} {s s' : ParseState} {t : Token} {ts : List Token}

theorem looseFrom_of_read {phrase : Phrase} {f : Formula} (h : read o phrase s = .ok (f, s')) :
    LooseFrom phrase.rank s'.rest := by
  obtain ⟨us, rest, d, -, -, hloose, rfl⟩ := read_eq_ok_iff.mp h
  exact hloose

theorem run_of_read {phrase : Phrase} {f : Formula} (h : read o phrase s = .ok (f, s')) (k : Nat) :
    Pass.run ⟨.operand, k, s.position⟩ s.rest = Pass.run ⟨.operator, k, s'.position⟩ s'.rest := by
  obtain ⟨us, rest, d, hus, -, -, rfl⟩ := read_eq_ok_iff.mp h
  rw [hus, Pass.run_derivation d]
  rfl

theorem run_advance {due due' : Due} {k k' : Nat} (hs : s.rest = t :: ts)
    (h : Pass.step ⟨due, k, s.position⟩ t = .ok ⟨due', k', s.position + 1⟩) :
    Pass.run ⟨due, k, s.position⟩ s.rest =
      Pass.run ⟨due', k', s.advance.position⟩ s.advance.rest := by
  rw [hs, Pass.run_of_step h]
  simp only [ParseState.advance, hs, List.tail_cons]

/-! A group whose content has been read is refused unless the next token closes it, be it because
the text ends there or because some other token follows. -/

theorem run_of_unclosed_end {f : Formula} (h : read o (.expression .loose) s = .ok (f, s'))
    (hnil : s'.rest = []) (k : Nat) :
    Pass.run ⟨.operand, k + 1, s.position⟩ s.rest = .error (.unexpectedEnd s'.position) := by
  rw [run_of_read h, hnil]
  rfl

theorem run_of_unclosed {f : Formula} (h : read o (.expression .loose) s = .ok (f, s'))
    (ht : s'.rest = t :: ts) (hclose : t.kind ≠ .closeParen) (k : Nat) :
    Pass.run ⟨.operand, k + 1, s.position⟩ s.rest =
      .error (.tokenMismatch .closeParen t s'.position) := by
  have hloose := looseFrom_of_read h
  rw [ht] at hloose
  rw [run_of_read h, ht]
  exact Pass.run_of_step_error (Pass.step_unclosed (Pass.kind_ne_connective hloose) hclose)

/-- Where an operand is due, a phrase is refused as the pass refuses what is left, however many
groups are open around it; where an operator is due, so is a chain. -/
theorem run_of_error (o : ParseOptions) :
    (∀ phrase s, ∀ e, read o phrase s = .error e → e.ForDepth ∨
      ∀ k, Pass.run ⟨.operand, k, s.position⟩ s.rest = .error e) ∧
    ∀ tier left s, ∀ e, chain o tier left s = .error e → e.ForDepth ∨
      ∀ k, Pass.run ⟨.operator, k, s.position⟩ s.rest = .error e := by
  apply descent
  case expression =>
      intro tier s hop hch e h
      rw [read, expression_eq, operand_eq_read] at h
      split at h
      · next e' he => cases h; exact hop e he
      · next f s₁ hf =>
          refine (hch f s₁ hf e h).imp_right fun hrun k => ?_
          rw [run_of_read hf]
          exact hrun k
  case chain =>
      intro tier left s ih e h
      rw [chain_eq] at h
      split at h
      · next op lexeme ts hs =>
          have hrun : ∀ k, Pass.run ⟨.operator, k, s.position⟩ s.rest =
              Pass.run ⟨.operand, k, s.advance.position⟩ s.advance.rest :=
            fun k => run_advance hs rfl
          obtain ⟨hop, hstep⟩ := ih op lexeme ts hs
          split at h
          · rw [operand_eq_read] at h
            split at h
            · next e' he =>
                cases h
                refine (hop e he).imp_right fun hk k => ?_
                rw [hrun]
                exact hk k
            · next right s₁ hright =>
                split at h
                · cases h; exact .inl ⟨_, _, rfl⟩
                · refine (hstep right s₁ hright e h).imp_right fun hk k => ?_
                  rw [hrun, run_of_read hright]
                  exact hk k
          · cases h
      · cases h
  case factor =>
      intro s ih e h
      rw [read, factor_eq] at h
      split at h
      · next hs => cases h; exact .inr fun k => by rw [hs]; rfl
      · next t ts hs =>
          have ih' := ih t ts hs
          split at h
          · cases h
          · cases h
          · next ht =>
              have hrun : ∀ k, Pass.run ⟨.operand, k, s.position⟩ s.rest =
                  Pass.run ⟨.operand, k, s.advance.position⟩ s.advance.rest :=
                fun k => run_advance hs (by simp [Pass.step, ht])
              split at h
              · cases h; exact .inl ⟨_, _, rfl⟩
              · split at h
                · next e' he =>
                    cases h
                    refine (ih' .factor e he).imp_right fun hk k => ?_
                    rw [hrun]
                    exact hk k
                · cases h
          · next ht =>
              have hrun : ∀ k, Pass.run ⟨.operand, k, s.position⟩ s.rest =
                  Pass.run ⟨.operand, k + 1, s.advance.position⟩ s.advance.rest :=
                fun k => run_advance hs (by simp [Pass.step, ht])
              split at h
              · cases h; exact .inl ⟨_, _, rfl⟩
              · split at h
                · next e' he =>
                    cases h
                    refine (ih' (.expression .loose) e he).imp_right fun hk k => ?_
                    rw [hrun]
                    exact hk (k + 1)
                · next g s₁ hg =>
                    refine .inr fun k => ?_
                    rw [hrun]
                    split at h
                    · next hnil => cases h; exact run_of_unclosed_end hg hnil k
                    · next u us hu =>
                        split at h
                        · cases h
                        · next hclose => cases h; exact run_of_unclosed hg hu hclose k
          · next hliteral hvar hnegation hopen =>
              cases h
              refine .inr fun k => ?_
              rw [hs]
              exact Pass.run_of_step_error (Pass.step_misplaced hliteral hvar hnegation hopen)

end Parser

namespace Statement

/-- Unless it is refused for depth, what comes of a text is what comes of one pass over its tokens:
acceptance, or the same refusal, with the same token and the same position. -/
theorem parse_eq_run {o : ParseOptions} {text : Text} {ts : List Token}
    (hlex : Token.lex o.marker text = .ok ts) :
    (∃ e, parse o text = .error e ∧ e.ForDepth) ∨
      (parse o text).map (fun _ => ()) = Pass.start.run ts := by
  rw [parse_of_lex hlex, ofTokens]
  split
  · next e he =>
      refine ((Parser.run_of_error o).1 (.expression .loose) _ e he).imp (fun h => ⟨e, rfl, h⟩)
        fun hk => ?_
      exact (hk 0).symm
  · next f s hf =>
      have hrun : Pass.start.run ts = Pass.run ⟨.operator, 0, s.position⟩ s.rest :=
        @Parser.run_of_read o (.start ts) s (.expression .loose) f hf 0
      have hloose := @Parser.looseFrom_of_read o (.start ts) s (.expression .loose) f hf
      refine .inr ?_
      rw [hrun]
      split
      · next hnil => rw [hnil]; rfl
      · next t us hu =>
          rw [hu] at hloose ⊢
          rw [Pass.run_of_step_error (Pass.step_leftover (Pass.kind_ne_connective hloose))]
          rfl

theorem parse_eq_run_unclosed_group :
    Token.lex (some '*') "!(p q".toList =
      .ok [⟨.negation, ['!']⟩, ⟨.openParen, ['(']⟩, ⟨.var, ['p']⟩, ⟨.var, ['q']⟩] ∧
    ((∃ e, parse {} "!(p q".toList = .error e ∧ e.ForDepth) ∨
      (parse {} "!(p q".toList).map (fun _ => ()) =
        .error (.tokenMismatch .closeParen ⟨.var, ['q']⟩ 3)) := by
  have hlex : Token.lex (some '*') "!(p q".toList =
      .ok [⟨.negation, ['!']⟩, ⟨.openParen, ['(']⟩, ⟨.var, ['p']⟩, ⟨.var, ['q']⟩] := by
    decide +kernel
  exact ⟨hlex, parse_eq_run (o := {}) hlex⟩

end Statement

end Sentential
