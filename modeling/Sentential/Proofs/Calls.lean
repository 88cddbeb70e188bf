import Sentential.Proofs.Parentheses
import Sentential.Proofs.Variables

/-!
# The calls of the descent

The descent is asked for an expression of a level, for an operand of a level or for a factor. A
level is a tier, or one of two that have no connective: a text as a whole and the content of a group
are expressions of the loosest level, and the operands of the tightest are factors. Without reading
a token, an expression asks for an operand of its own level and an operand for an expression of the
next tighter one, so the level is what gets smaller until a factor reads a token. The loop in which
an expression folds its connectives reads one token for every round.

Therefore every call comes to an end, in whatever state it is made: a stack that has room for twelve
calls for each token that is left, and for twelve more, does not overflow. And a call that succeeds
leaves the state in order. The position has moved over at least one token and not beyond the last
one, what is left are the tokens from there on, and no more negations and groups are open than
before. Behind the names and the marked groups there were stand the new ones. The formula, read from
left to right, is the tokens that have been used up, except for their parentheses.
-/

namespace Sentential

namespace Parser

/-! ## Calls on a stack -/

/-- How loosely a call binds. -/
inductive Level where
  | loosest
  | tier (tier : Tier)
  | tightest
  deriving DecidableEq, Repr

namespace Level

/-- The next tighter level. -/
def next? : Level → Option Level
  | loosest => some (tier .loose)
  | tier .loose => some (tier .middle)
  | tier .middle => some (tier .tight)
  | tier .tight => some tightest
  | tightest => none

/-- The number of tighter levels. -/
def rank : Level → Nat
  | loosest => 4
  | tier t => t.rank + 1
  | tightest => 0

/-- What an expression of the level is. -/
def phrase : Level → Phrase
  | loosest => .expression .loose
  | tier t => .expression t
  | tightest => .factor

/-- What an operand of the level is. -/
def operand : Level → Phrase
  | loosest => .expression .loose
  | tier t => t.operand
  | tightest => .factor

theorem rank_le (l : Level) : l.rank ≤ 4 := by
  cases l with
  | loosest => exact Nat.le_refl 4
  | tier t => exact Nat.succ_le_succ (Nat.le_succ_of_le t.rank_le)
  | tightest => exact Nat.zero_le 4

theorem rank_of_next? {l l' : Level} (h : l.next? = some l') : l.rank = l'.rank + 1 := by
  unfold next? at h
  split at h <;> cases h <;> rfl

theorem operand_eq_phrase {l l' : Level} (h : l.next? = some l') : l.operand = l'.phrase := by
  unfold next? at h
  split at h <;> cases h <;> rfl

theorem operand_eq_factor {l : Level} (h : l.next? = none) : l.operand = .factor := by
  unfold next? at h
  split at h <;> cases h
  rfl

end Level

/-- What the descent can be asked for. -/
inductive Call where
  | expression (l : Level)
  | operand (l : Level)
  | factor
  deriving DecidableEq, Repr

/-- The phrase that a call reads. -/
def Call.phrase : Call → Phrase
  | expression l => l.phrase
  | operand l => l.operand
  | factor => .factor

/-- The function of the descent that is called. On a level without connectives an expression is its
operand. -/
def Call.answer (o : ParseOptions) : Call → ParseState → Except CompileError (Formula × ParseState)
  | expression .loosest | operand .loosest => Parser.expression o .loose
  | expression (.tier t) => Parser.expression o t
  | operand (.tier t) => Parser.operand o t
  | expression .tightest | operand .tightest | factor => Parser.factor o

theorem Call.answer_eq (o : ParseOptions) (c : Call) (s : ParseState) :
    c.answer o s = read o c.phrase s := by
  cases c with
  | expression l => cases l <;> rfl
  | operand l =>
      cases l with
      | tier t => exact operand_eq_read o t s
      | loosest | tightest => rfl
  | factor => rfl

/-- An answer of the descent, if it has come out. -/
abbrev Answer? :=
  Option (Except CompileError (Formula × ParseState))

/-- Goes on with what has been read, unless no answer has come out or it is a failure. -/
def followed (answer : Answer?) (k : Formula → ParseState → Answer?) : Answer? :=
  match answer with
  | none => none
  | some (.error e) => some (.error e)
  | some (.ok (f, s)) => k f s

mutual

/-- The answer of a call that comes out on a stack with room for so many calls, if the stack does
not overflow. -/
def Call.answerWithin (o : ParseOptions) : Nat → Call → ParseState → Answer?
  | 0, _, _ => none
  | room + 1, .expression l, s =>
    followed (Call.answerWithin o room (.operand l) s) fun f s₁ => Level.loopWithin o room l f s₁
  | room + 1, .operand l, s =>
    match l.next? with
    | some l' => Call.answerWithin o room (.expression l') s
    | none => Call.answerWithin o room .factor s
  | room + 1, .factor, s =>
    match s.rest with
    | [] => some (.error (.unexpectedEnd s.position))
    | t :: _ =>
      match t.kind with
      | .literal => some (.ok (.literal t.lexeme, s.advance))
      | .var => some (.ok (.var t.lexeme t.lexeme, s.advance.meet t.lexeme))
      | .negation =>
        if s.nesting + 1 > o.maxNesting then
          some (.error (.tooDeep o.maxNesting (s.position + 1)))
        else
          followed (Call.answerWithin o room .factor s.advance.enter) fun f s₁ =>
            some (.ok (.not t.lexeme f, s₁.leave))
      | .openParen =>
        if s.nesting + 1 > o.maxNesting then
          some (.error (.tooDeep o.maxNesting (s.position + 1)))
        else
          followed (Call.answerWithin o room (.expression .loosest) s.advance.enter) fun f s₁ =>
            match s₁.rest with
            | [] => some (.error (.unexpectedEnd s₁.position))
            | u :: _ =>
              if u.kind = .closeParen then
                some (.ok (f, s₁.advance.leave.mark o.marker t.lexeme f))
              else some (.error (.tokenMismatch .closeParen u s₁.position))
      | _ => some (.error (.misplacedToken t s.position))

/-- The answer of the loop of an expression that has read `left`, where every round counts as a call
and has its own on the same stack. -/
def Level.loopWithin (o : ParseOptions) : Nat → Level → Formula → ParseState → Answer?
  | 0, _, _, _ => none
  | room + 1, l, left, s =>
    match s.rest with
    | ⟨.connective op, lexeme⟩ :: _ =>
      if l = .tier op.tier then
        followed (Call.answerWithin o room (.operand l) s.advance) fun right s₁ =>
          if (Formula.binary op lexeme left right).depth > o.maxTreeDepth then
            some (.error (.tooDeep o.maxTreeDepth s₁.position))
          else Level.loopWithin o room l (.binary op lexeme left right) s₁
      else some (.ok (left, s))
    | _ => some (.ok (left, s))

end

/-- What the loop of an expression comes to. No connective is folded on the levels that are no
tiers. -/
def Level.loop (o : ParseOptions) : Level → Formula → ParseState →
    Except CompileError (Formula × ParseState)
  | .tier t, left, s => chain o t left s
  | _, left, s => .ok (left, s)

theorem Level.loop_eq (o : ParseOptions) (l : Level) (left : Formula) (s : ParseState) :
    l.loop o left s =
      match s.rest with
      | ⟨.connective op, lexeme⟩ :: _ =>
        if l = .tier op.tier then
          match read o l.operand s.advance with
          | .error e => .error e
          | .ok (right, s₁) =>
            if (Formula.binary op lexeme left right).depth > o.maxTreeDepth then
              .error (.tooDeep o.maxTreeDepth s₁.position)
            else l.loop o (.binary op lexeme left right) s₁
        else .ok (left, s)
      | _ => .ok (left, s) := by
  cases l with
  | tier t =>
      show chain o t left s = _
      rw [chain_eq, operand_eq_read]
      cases s.rest with
      | nil => rfl
      | cons u ts =>
          obtain ⟨kind, lexeme⟩ := u
          cases kind with
          | connective op =>
              dsimp only
              by_cases ht : op.tier = t
              · rw [if_pos ht, if_pos (congrArg Level.tier ht.symm)]
                rfl
              · rw [if_neg ht, if_neg fun hl => ht (Level.tier.inj hl).symm]
          | literal | var | negation | openParen | closeParen => rfl
  | loosest | tightest =>
      split
      · exact (if_neg nofun).symm
      · rfl

theorem followed_some (answer : Except CompileError (Formula × ParseState))
    (k : Formula → ParseState → Answer?)
    (k' : Formula → ParseState → Except CompileError (Formula × ParseState)) :
    (∀ f s, answer = .ok (f, s) → k f s = some (k' f s)) →
      followed (some answer) k =
        some (match answer with
          | .error e => .error e
          | .ok (f, s) => k' f s) := by
  intro h
  cases answer with
  | error e => rfl
  | ok r => exact h r.1 r.2 rfl

theorem read_phrase (o : ParseOptions) (l : Level) (s : ParseState) :
    read o l.phrase s =
      match read o l.operand s with
      | .error e => .error e
      | .ok (f, s₁) => l.loop o f s₁ := by
  cases l with
  | tier t =>
      show expression o t s = _
      rw [expression_eq, operand_eq_read]
      rfl
  | loosest =>
      rw [Level.phrase, Level.operand]
      cases read o (.expression .loose) s <;> rfl
  | tightest =>
      rw [Level.phrase, Level.operand]
      cases read o .factor s <;> rfl

/-- How much room a call needs beside its own: twelve calls for each token that is left, and those
that are made before one of them is read. -/
def Call.size : Call → ParseState → Nat
  | .expression l, s => 12 * s.rest.length + 2 * l.rank + 2
  | .operand l, s => 12 * s.rest.length + 2 * l.rank + 1
  | .factor, s => 12 * s.rest.length

theorem Call.size_lt (c : Call) (s : ParseState) : c.size s < 12 * (s.rest.length + 1) := by
  cases c with
  | expression l | operand l =>
      have := l.rank_le
      rw [Call.size]
      omega
  | factor =>
      rw [Call.size]
      omega

/-- Room for so many calls is enough wherever no more is needed: the answer comes out, and it is the
answer of the descent. -/
structure Enough (o : ParseOptions) (room : Nat) : Prop where
  call : ∀ (c : Call) (s : ParseState), c.size s < room →
    c.answerWithin o room s = some (read o c.phrase s)
  loop : ∀ (l : Level) (left : Formula) (s : ParseState), 12 * s.rest.length < room →
    l.loopWithin o room left s = some (l.loop o left s)

variable {o : ParseOptions} {room : Nat} {s : ParseState}

theorem Enough.expression (h : Enough o room) {l : Level}
    (hsize : (Call.expression l).size s < room + 1) :
    (Call.expression l).answerWithin o (room + 1) s = some (read o l.phrase s) := by
  rw [Call.size] at hsize
  rw [Call.answerWithin, h.call (.operand l) s (by rw [Call.size]; omega), read_phrase]
  -- the operand has read a token, which is what the loop is left with room for
  refine followed_some _ _ _ fun f s₁ hread => h.loop l f s₁ ?_
  have := length_rest_of_read hread
  omega

theorem Enough.operand (h : Enough o room) {l : Level}
    (hsize : (Call.operand l).size s < room + 1) :
    (Call.operand l).answerWithin o (room + 1) s = some (read o l.operand s) := by
  rw [Call.size] at hsize
  rw [Call.answerWithin]
  split
  · next l' hnext =>
      -- no token has been read, but the level is tighter
      have hrank := Level.rank_of_next? hnext
      rw [h.call (.expression l') s (by rw [Call.size]; omega), Level.operand_eq_phrase hnext]
      rfl
  · next hnext =>
      rw [h.call .factor s (by rw [Call.size]; omega), Level.operand_eq_factor hnext]
      rfl

theorem Enough.factor (h : Enough o room) (hsize : Call.factor.size s < room + 1) :
    Call.factor.answerWithin o (room + 1) s = some (Parser.factor o s) := by
  rw [Call.size] at hsize
  rw [Call.answerWithin, factor_eq]
  cases hs : s.rest with
  | nil => rfl
  | cons t ts =>
      have hrest : s.advance.enter.rest.length < s.rest.length := ParseState.length_rest_advance hs
      dsimp only
      cases t.kind with
      | literal | var | connective op | closeParen => rfl
      | negation =>
          dsimp only
          split
          · rfl
          · rw [h.call .factor s.advance.enter (by rw [Call.size]; omega)]
            exact followed_some _ _ _ fun f s₁ _ => rfl
      | openParen =>
          dsimp only
          split
          · rfl
          · have hsize' : (Call.expression .loosest).size s.advance.enter < room := by
              rw [Call.size, Level.rank]
              omega
            rw [h.call (.expression .loosest) s.advance.enter hsize']
            refine followed_some _ _ _ fun f s₁ _ => ?_
            cases s₁.rest with
            | nil => rfl
            | cons u us => exact (apply_ite some _ _ _).symm

theorem Enough.round (h : Enough o room) {l : Level} {left : Formula}
    (hsize : 12 * s.rest.length < room + 1) :
    l.loopWithin o (room + 1) left s = some (l.loop o left s) := by
  rw [Level.loopWithin, Level.loop_eq]
  split
  · next op lexeme ts hs =>
      have hrest := ParseState.length_rest_advance hs
      have hrank := l.rank_le
      split
      · rw [h.call (.operand l) s.advance (by rw [Call.size]; omega)]
        refine followed_some _ _ _ fun right s₁ hread => ?_
        have := length_rest_of_read hread
        split
        · rfl
        · exact h.loop l _ s₁ (by omega)
      · rfl
  · rfl

theorem enough (o : ParseOptions) (room : Nat) : Enough o room := by
  induction room with
  | zero =>
      exact ⟨fun c s h => absurd h (Nat.not_lt_zero _),
        fun l left s h => absurd h (Nat.not_lt_zero _)⟩
  | succ room ih =>
      refine ⟨fun c s hsize => ?_, fun l left s hsize => ih.round hsize⟩
      cases c with
      | expression l => exact ih.expression hsize
      | operand l => exact ih.operand hsize
      | factor => exact ih.factor hsize

end Parser

/-! ## What a call leaves behind -/

namespace ParseState

/-- The variables among some tokens, in the order of their first occurrences. -/
def namesIn (ts : List Token) : List Text :=
  ((ts.filter fun t => t.kind = .var).map Token.lexeme).eraseDups

theorem namesIn_concat (ts : List Token) (t : Token) :
    namesIn (ts ++ [t]) = learn (namesIn ts) t := by
  unfold namesIn learn
  rw [List.filter_append, List.map_append]
  by_cases ht : t.kind = .var
  · rw [List.filter_cons_of_pos (by simp [ht]), List.filter_nil, List.map_singleton,
      Assignment.eraseDups_concat]
    generalize (ts.filter fun t => t.kind = .var).map Token.lexeme = lexemes
    by_cases hmem : t.lexeme ∈ lexemes <;> simp [ht, hmem]
  · simp [ht]

/-- What has been learned is what was known, and behind it the variables that were not. -/
theorem foldl_learn (names : List Text) (ts : List Token) :
    ts.foldl learn names = names ++ (namesIn ts).filter fun x => !names.contains x := by
  induction ts using List.reverseRecOn with
  | nil => exact (List.append_nil names).symm
  | append_singleton ts t ih =>
      rw [List.foldl_concat, ih, namesIn_concat, learn, learn]
      by_cases ht : t.kind = .var <;> by_cases hnames : t.lexeme ∈ names <;>
        by_cases hmem : t.lexeme ∈ namesIn ts <;> simp [ht, hnames, hmem]

end ParseState

namespace Formula

/-- The leaves and operators of the formula from left to right. A negation stands before what it
negates. -/
def inOrder : Formula → List Token
  | literal lexeme => [⟨.literal, lexeme⟩]
  | var lexeme _ => [⟨.var, lexeme⟩]
  | not lexeme f => ⟨.negation, lexeme⟩ :: f.inOrder
  | binary op lexeme f g => f.inOrder ++ ⟨.connective op, lexeme⟩ :: g.inOrder

end Formula

namespace Derivation

variable {phrase : Phrase} {ts : List Token} {f : Formula}

theorem inOrder_eq (d : Derivation phrase ts f) :
    f.inOrder = ts.filter fun t => t.kind ≠ .openParen ∧ t.kind ≠ .closeParen := by
  induction d with
  | operand d ih => exact ih
  | compound h d e ihd ihe => rw [Formula.inOrder, ihd, ihe, List.filter_append]; rfl
  | literal lexeme | var lexeme => rfl
  | negation d ih => rw [Formula.inOrder, ih]; rfl
  | group d ih => simp [ih]

theorem exists_spans (d : Derivation phrase ts f) (marker : Option Char) :
    ∃ spans : List (Nat × Nat), List.Forall₂ (fun p g => Token.Matches ts p.1 p.2 ∧
      (∃ t, ts[p.1]? = some t ∧ t.Marked marker) ∧ ∃ path, f.at? path = some g)
      spans (d.marks marker) := by
  have hencloses := @forall₂_encloses marker phrase ts f d [] []
  rw [List.nil_append, List.append_nil] at hencloses
  exact ⟨_, hencloses.imp fun p g hg => ⟨hg.isMatch, hg.marked, hg.part⟩⟩

end Derivation

namespace Parser

/-- Every call of the descent comes to an end, in whatever state and with whatever limits it is
made, and the room it needs is known from the number of tokens that are left. If it succeeds, the
position has moved over one or more of the tokens, which are accounted for: the names are those
there were and the new ones among these tokens, in the order of their first occurrences, what has
been recorded is marked groups of these tokens and parts of the formula, and the formula from left
to right is these tokens without their parentheses. The state is otherwise as it was. -/
theorem Call.ends_in_order (o : ParseOptions) (c : Call) {tokens : List Token} {s : ParseState}
    (hs : s.rest = tokens.drop s.position) :
    (∀ room, 12 * (s.rest.length + 1) ≤ room → c.answerWithin o room s = some (c.answer o s)) ∧
    ∀ f s', c.answer o s = .ok (f, s') →
      let used := (tokens.drop s.position).take (s'.position - s.position)
      (s.position < s'.position ∧ s'.position ≤ tokens.length) ∧
      (s'.rest = tokens.drop s'.position ∧ s'.rest.head? = tokens[s'.position]?) ∧
      s'.nesting = s.nesting ∧
      s'.names = s.names ++ (ParseState.namesIn used).filter (fun x => !s.names.contains x) ∧
      (∃ (spans : List (Nat × Nat)) (groups : List Formula), s'.marked = s.marked ++ groups ∧
        List.Forall₂ (fun p g => Token.Matches used p.1 p.2 ∧
          (∃ t, used[p.1]? = some t ∧ t.Marked o.marker) ∧ ∃ path, f.at? path = some g)
          spans groups) ∧
      f.inOrder = used.filter fun t => t.kind ≠ .openParen ∧ t.kind ≠ .closeParen := by
  rw [Call.answer_eq]
  refine ⟨fun room hroom => (enough o room).call c s (Nat.lt_of_lt_of_le (c.size_lt s) hroom),
    fun f s' h => ?_⟩
  have hshorter := length_rest_of_read h
  have hrest' := rest_of_read h hs
  obtain ⟨ts, rest, d, hrest, -, -, rfl⟩ := read_eq_ok_iff.mp h
  obtain ⟨spans, hspans⟩ := d.exists_spans o.marker
  have hdrop : tokens.drop s.position = ts ++ rest := hs.symm.trans hrest
  have hlength : tokens.length - s.position = ts.length + rest.length := by
    rw [← List.length_drop, hdrop, List.length_append]
  -- what the descent has read is not empty, for fewer tokens are left
  have hpositive : 0 < ts.length := by
    have hshorter : rest.length < s.rest.length := hshorter
    rw [hrest, List.length_append] at hshorter
    omega
  intro used
  have hused : used = ts := by
    show (tokens.drop s.position).take (s.position + ts.length - s.position) = ts
    rw [hdrop, Nat.add_sub_cancel_left, List.take_left]
  rw [hused]
  refine ⟨⟨Nat.lt_add_of_pos_right hpositive, ?_⟩, ⟨hrest', ?_⟩, rfl, ParseState.foldl_learn _ _,
    ⟨spans, _, rfl, hspans⟩, d.inOrder_eq⟩
  · show s.position + ts.length ≤ tokens.length
    omega
  · rw [hrest', List.head?_drop]

theorem Call.ends_in_order_inside_text :
    let q : Token := ⟨.var, ['q']⟩
    let bar : Token := ⟨.connective .nand, ['|']⟩
    let sign : Token := ⟨.negation, ['!']⟩
    let p : Token := ⟨.var, ['p']⟩
    let arrow : Token := ⟨.connective .implies, "->".toList⟩
    let tokens : List Token := [p, ⟨.connective .and, ['&']⟩, ⟨.openParen, "*(".toList⟩, q, bar, sign,
      p, ⟨.closeParen, [')']⟩, arrow, p]
    let s : ParseState := ⟨tokens.drop 2, 2, 3, [['p']], [.literal ['t']]⟩
    let c : Call := .expression (.tier .tight)
    s.rest = tokens.drop s.position ∧ c.answerWithin {} 108 s = some (c.answer {} s) ∧
    ∃ f s', c.answer {} s = .ok (f, s') ∧ s'.rest.head? = some arrow ∧ s'.nesting = s.nesting ∧
      s'.names = [['p'], ['q']] ∧ f.inOrder = [q, bar, sign, p] := by
  intro q bar sign p arrow tokens s c
  let f : Formula := .binary .nand ['|'] (.var ['q'] ['q']) (.not ['!'] (.var ['p'] ['p']))
  let s' : ParseState := ⟨tokens.drop 8, 8, 3, [['p'], ['q']], [.literal ['t'], f]⟩
  have hs : s.rest = tokens.drop s.position := rfl
  have hanswer : c.answer {} s = .ok (f, s') := by decide +kernel
  obtain ⟨hroom, hafter⟩ := Call.ends_in_order {} c hs
  obtain ⟨-, ⟨-, hhead⟩, hnesting, hnames, -, hinOrder⟩ := hafter f s' hanswer
  exact ⟨hs, hroom 108 (by decide), f, s', hanswer, hhead, hnesting, hnames, hinOrder⟩

end Parser

end Sentential
