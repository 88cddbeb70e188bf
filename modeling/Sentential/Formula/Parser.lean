import Sentential.Formula.Basic
import Sentential.CompileError
import Sentential.ParseOptions

/-!
# From tokens to a formula

A recursive descent over the tiers of connectives. An expression of a tier is an operand followed
by a chain of connectives of that tier with further operands, folded to the left; an operand of a
tier is an expression of the next tighter one, and at the tightest a factor: a literal, a variable,
a negated factor or a group.

The state carries the tokens that are left, the position of the first of them, how many groups and
negations are open, the names met so far and the marked groups that have been closed. Every
function answers with a state that has fewer tokens left, and that is why the descent ends: the
results carry the bound while they are computed, and `expression`, `operand`, `chain` and `factor`
are what remains when it is dropped. Their equations are `expression_eq`, `operand_eq`, `chain_eq`
and `factor_eq`.
-/

namespace Sentential

/-- Where a reading of tokens stands. -/
structure ParseState where
  /-- The tokens that are left. -/
  rest : List Token
  /-- How many tokens have been read. -/
  position : Nat
  /-- How many groups and negations are open. -/
  nesting : Nat
  /-- The names of the variables met, in the order of their first occurrence. -/
  names : List Text
  /-- The marked groups, in the order in which they were closed. -/
  marked : List Formula
  deriving DecidableEq, Repr

namespace ParseState

/-- The state before the first token. -/
def start (tokens : List Token) : ParseState :=
  ⟨tokens, 0, 0, [], []⟩

/-- The first token that is left has been read. -/
def advance (s : ParseState) : ParseState :=
  { s with rest := s.rest.tail, position := s.position + 1 }

/-- One more group or negation is open. -/
def enter (s : ParseState) : ParseState :=
  { s with nesting := s.nesting + 1 }

/-- One group or negation fewer is open. -/
def leave (s : ParseState) : ParseState :=
  { s with nesting := s.nesting - 1 }

/-- A variable has been met. -/
def meet (s : ParseState) (name : Text) : ParseState :=
  if s.names.contains name then s else { s with names := s.names ++ [name] }

/-- The group that has just been closed is recorded if its parenthesis carries the marker. -/
def mark (s : ParseState) (marker : Option Char) (paren : Text) (f : Formula) : ParseState :=
  if marker.isSome && paren.head? == marker then { s with marked := s.marked ++ [f] } else s

theorem rest_meet (s : ParseState) (name : Text) : (s.meet name).rest = s.rest := by
  unfold meet
  split <;> rfl

theorem rest_mark (s : ParseState) (marker : Option Char) (paren : Text) (f : Formula) :
    (s.mark marker paren f).rest = s.rest := by
  unfold mark
  split <;> rfl

theorem length_rest_advance {s : ParseState} {t : Token} {ts : List Token}
    (h : s.rest = t :: ts) : s.advance.rest.length < s.rest.length := by
  simp [advance, h]

end ParseState

namespace Tier

/-- The place of a tier in the descent: the tightest is the last. -/
def rank : Tier → Nat
  | loose => 2
  | middle => 1
  | tight => 0

theorem rank_le (t : Tier) : t.rank ≤ 2 := by
  cases t <;> decide

end Tier

namespace Parser

/-- A formula and a state with fewer tokens left than `s` has. -/
private abbrev Shorter (s : ParseState) :=
  { r : Formula × ParseState // r.2.rest.length < s.rest.length }

/-- A formula and a state with no more tokens left than `s` has. -/
private abbrev NoLonger (s : ParseState) :=
  { r : Formula × ParseState // r.2.rest.length ≤ s.rest.length }

mutual

private def boundedExpression (o : ParseOptions) (tier : Tier) (s : ParseState) :
    Except CompileError (Shorter s) :=
  match boundedOperand o tier s with
  | .error e => .error e
  | .ok ⟨(f, s₁), h₁⟩ =>
    match boundedChain o tier f s₁ with
    | .error e => .error e
    | .ok ⟨r, h₂⟩ => .ok ⟨r, Nat.lt_of_le_of_lt h₂ h₁⟩
termination_by 8 * s.rest.length + (2 * tier.rank + 2)
decreasing_by
  · omega
  · have := tier.rank_le
    dsimp only at h₁
    omega

private def boundedOperand (o : ParseOptions) (tier : Tier) (s : ParseState) :
    Except CompileError (Shorter s) :=
  match tier with
  | .loose => boundedExpression o .middle s
  | .middle => boundedExpression o .tight s
  | .tight => boundedFactor o s
termination_by 8 * s.rest.length + (2 * tier.rank + 1)
decreasing_by
  all_goals simp only [Tier.rank]
  all_goals omega

private def boundedChain (o : ParseOptions) (tier : Tier) (left : Formula) (s : ParseState) :
    Except CompileError (NoLonger s) :=
  match h : s.rest with
  | ⟨.connective op, lexeme⟩ :: _ =>
    if op.tier = tier then
      match boundedOperand o tier s.advance with
      | .error e => .error e
      | .ok ⟨(right, s₁), h₁⟩ =>
        if (Formula.binary op lexeme left right).depth > o.maxTreeDepth then
          .error (.tooDeep o.maxTreeDepth s₁.position)
        else
          match boundedChain o tier (.binary op lexeme left right) s₁ with
          | .error e => .error e
          | .ok ⟨r, h₂⟩ =>
            .ok ⟨r, Nat.le_of_lt (Nat.lt_of_le_of_lt h₂
              (Nat.lt_trans h₁ (ParseState.length_rest_advance h)))⟩
    else .ok ⟨(left, s), Nat.le_refl _⟩
  | _ => .ok ⟨(left, s), Nat.le_refl _⟩
termination_by 8 * s.rest.length
decreasing_by
  · have := ParseState.length_rest_advance h
    have := tier.rank_le
    omega
  · have := ParseState.length_rest_advance h
    dsimp only at h₁
    omega

private def boundedFactor (o : ParseOptions) (s : ParseState) :
    Except CompileError (Shorter s) :=
  match h : s.rest with
  | [] => .error (.unexpectedEnd s.position)
  | t :: _ =>
    match t.kind with
    | .literal => .ok ⟨(.literal t.lexeme, s.advance), ParseState.length_rest_advance h⟩
    | .var =>
      .ok ⟨(.var t.lexeme t.lexeme, s.advance.meet t.lexeme), by
        rw [ParseState.rest_meet]
        exact ParseState.length_rest_advance h⟩
    | .negation =>
      if s.nesting + 1 > o.maxNesting then .error (.tooDeep o.maxNesting (s.position + 1))
      else
        match boundedFactor o s.advance.enter with
        | .error e => .error e
        | .ok ⟨(f, s₁), h₁⟩ =>
          .ok ⟨(.not t.lexeme f, s₁.leave), Nat.lt_trans h₁ (ParseState.length_rest_advance h)⟩
    | .openParen =>
      if s.nesting + 1 > o.maxNesting then .error (.tooDeep o.maxNesting (s.position + 1))
      else
        match boundedExpression o .loose s.advance.enter with
        | .error e => .error e
        | .ok ⟨(f, s₁), h₁⟩ =>
          match h₂ : s₁.rest with
          | [] => .error (.unexpectedEnd s₁.position)
          | u :: _ =>
            if u.kind = .closeParen then
              .ok ⟨(f, s₁.advance.leave.mark o.marker t.lexeme f), by
                rw [ParseState.rest_mark]
                exact Nat.lt_trans (ParseState.length_rest_advance h₂)
                  (Nat.lt_trans h₁ (ParseState.length_rest_advance h))⟩
            else .error (.tokenMismatch .closeParen u s₁.position)
    | _ => .error (.misplacedToken t s.position)
termination_by 8 * s.rest.length
decreasing_by
  · exact Nat.mul_lt_mul_of_pos_left (ParseState.length_rest_advance h) (by decide)
  · have : s.advance.enter.rest.length < s.rest.length := ParseState.length_rest_advance h
    simp only [Tier.rank]
    omega

end

/-- Reads an expression of a tier: an operand, and the connectives of that tier which follow it. -/
def expression (o : ParseOptions) (tier : Tier) (s : ParseState) :
    Except CompileError (Formula × ParseState) :=
  (boundedExpression o tier s).map Subtype.val

/-- Reads an operand of a tier: an expression of the next tighter one, or a factor. -/
def operand (o : ParseOptions) (tier : Tier) (s : ParseState) :
    Except CompileError (Formula × ParseState) :=
  (boundedOperand o tier s).map Subtype.val

/-- Reads the connectives of a tier which follow `left`, each with its operand, and folds them to
the left. -/
def chain (o : ParseOptions) (tier : Tier) (left : Formula) (s : ParseState) :
    Except CompileError (Formula × ParseState) :=
  (boundedChain o tier left s).map Subtype.val

/-- Reads a factor: a literal, a variable, a negated factor or a group. -/
def factor (o : ParseOptions) (s : ParseState) : Except CompileError (Formula × ParseState) :=
  (boundedFactor o s).map Subtype.val

/-! ## The equations of the descent -/

theorem expression_eq (o : ParseOptions) (tier : Tier) (s : ParseState) :
    expression o tier s =
      match operand o tier s with
      | .error e => .error e
      | .ok (f, s₁) => chain o tier f s₁ := by
  rw [expression, operand, boundedExpression]
  cases boundedOperand o tier s with
  | error e => rfl
  | ok r =>
    obtain ⟨⟨f, s₁⟩, h₁⟩ := r
    simp only [Except.map, chain]
    cases boundedChain o tier f s₁ <;> rfl

theorem operand_eq (o : ParseOptions) (tier : Tier) (s : ParseState) :
    operand o tier s =
      match tier with
      | .loose => expression o .middle s
      | .middle => expression o .tight s
      | .tight => factor o s := by
  rw [operand, boundedOperand.eq_def]
  cases tier <;> rfl

theorem chain_eq (o : ParseOptions) (tier : Tier) (left : Formula) (s : ParseState) :
    chain o tier left s =
      match s.rest with
      | ⟨.connective op, lexeme⟩ :: _ =>
        if op.tier = tier then
          match operand o tier s.advance with
          | .error e => .error e
          | .ok (right, s₁) =>
            if (Formula.binary op lexeme left right).depth > o.maxTreeDepth then
              .error (.tooDeep o.maxTreeDepth s₁.position)
            else chain o tier (.binary op lexeme left right) s₁
        else .ok (left, s)
      | _ => .ok (left, s) := by
  rw [chain, boundedChain]
  split
  · next op lexeme rest h =>
    simp only [h, operand]
    split
    · cases boundedOperand o tier s.advance with
      | error e => rfl
      | ok r =>
        obtain ⟨⟨right, s₁⟩, h₁⟩ := r
        by_cases hd : (Formula.binary op lexeme left right).depth > o.maxTreeDepth
        · simp only [Except.map, if_pos hd]
        · simp only [Except.map, chain, if_neg hd]
          cases boundedChain o tier (.binary op lexeme left right) s₁ <;> rfl
    · rfl
  · next h =>
    split
    · next op lexeme rest h' => exact absurd h' (h op lexeme rest)
    · rfl

theorem factor_eq (o : ParseOptions) (s : ParseState) :
    factor o s =
      match s.rest with
      | [] => .error (.unexpectedEnd s.position)
      | t :: _ =>
        match t.kind with
        | .literal => .ok (.literal t.lexeme, s.advance)
        | .var => .ok (.var t.lexeme t.lexeme, s.advance.meet t.lexeme)
        | .negation =>
          if s.nesting + 1 > o.maxNesting then .error (.tooDeep o.maxNesting (s.position + 1))
          else
            match factor o s.advance.enter with
            | .error e => .error e
            | .ok (f, s₁) => .ok (.not t.lexeme f, s₁.leave)
        | .openParen =>
          if s.nesting + 1 > o.maxNesting then .error (.tooDeep o.maxNesting (s.position + 1))
          else
            match expression o .loose s.advance.enter with
            | .error e => .error e
            | .ok (f, s₁) =>
              match s₁.rest with
              | [] => .error (.unexpectedEnd s₁.position)
              | u :: _ =>
                if u.kind = .closeParen then
                  .ok (f, s₁.advance.leave.mark o.marker t.lexeme f)
                else .error (.tokenMismatch .closeParen u s₁.position)
        | _ => .error (.misplacedToken t s.position) := by
  rw [factor, boundedFactor]
  split
  · next h => simp only [h]; rfl
  · next t rest h =>
    simp only [h]
    split
    · rfl
    · rfl
    · simp only [factor]
      split
      · rfl
      · cases boundedFactor o s.advance.enter <;> rfl
    · simp only [expression]
      split
      · rfl
      · cases boundedExpression o .loose s.advance.enter with
        | error e => rfl
        | ok r =>
          obtain ⟨⟨f, s₁⟩, h₁⟩ := r
          conv => rhs; simp only [Except.map]
          dsimp only
          split
          · next h₂ => simp only [h₂]; rfl
          · next u us h₂ => simp only [h₂]; split <;> rfl
    · rfl

/-! ## Every reading uses up tokens -/

private theorem length_rest_of_map_val {s s' : ParseState} {f : Formula}
    {answer : Except CompileError (Shorter s)}
    (h : answer.map Subtype.val = .ok (f, s')) : s'.rest.length < s.rest.length := by
  cases answer with
  | error e => cases h
  | ok r =>
    have hr : r.val = (f, s') := Except.ok.inj h
    have hshorter := r.property
    rwa [hr] at hshorter

theorem length_rest_of_expression {o : ParseOptions} {tier : Tier} {s s' : ParseState}
    {f : Formula} (h : expression o tier s = .ok (f, s')) :
    s'.rest.length < s.rest.length :=
  length_rest_of_map_val h

theorem length_rest_of_factor {o : ParseOptions} {s s' : ParseState} {f : Formula}
    (h : factor o s = .ok (f, s')) : s'.rest.length < s.rest.length :=
  length_rest_of_map_val h

end Parser

end Sentential
