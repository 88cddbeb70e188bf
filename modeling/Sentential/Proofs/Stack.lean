import Sentential.Proofs.Calls
import Sentential.Proofs.TreeDepth

/-!
# Open calls

A call that is made while others wait for it needs a place on the stack. Between two tokens the
descent makes at most eleven calls, an expression and an operand for each level and a factor, and
only a factor lets a call wait while it goes on behind a token: at a negation, for one more factor,
and at a parenthesis, for a whole expression. Both count as nesting. The rounds of a loop come one
after the other and no round waits for another, so the length of a text does not matter, and the
limit on nesting bounds the calls that are open at a time.

A function that looks at formulas has as many calls open as the formula is deep, so it is bounded by
both limits. The two bounds are reached, by groups and by negated compounds that are as deep in each
other as they may be. Which of them is the greater depends on the limits. With the default ones it
is the descent's; and since a limit may be any positive number, there is no stack that is large
enough for all of them.
-/

namespace Sentential

namespace Parser

variable {o : ParseOptions} {l : Level} {c : Call} {s s₁ : ParseState} {f : Formula} {n : Nat}

/-- An expression of the level that was asked for in `s` has read a formula and stands in a state in
which it looks for a connective. -/
inductive Level.Loops (o : ParseOptions) (l : Level) (s : ParseState) :
    Formula → ParseState → Prop where
  | first {f : Formula} {s₁ : ParseState} (h : read o l.operand s = .ok (f, s₁)) :
      Loops o l s f s₁
  | next {left right : Formula} {op : Connective} {lexeme : Text} {ts : List Token}
      {s₁ s₂ : ParseState} (before : Loops o l s left s₁)
      (hs : s₁.rest = ⟨.connective op, lexeme⟩ :: ts) (hl : l = .tier op.tier)
      (h : read o l.operand s₁.advance = .ok (right, s₂))
      (hdepth : (Formula.binary op lexeme left right).depth ≤ o.maxTreeDepth) :
      Loops o l s (.binary op lexeme left right) s₂

/-- At some time so many calls are open, the first of which is the call that was made in the state
and each other one made by the one before it. -/
inductive Call.Opens (o : ParseOptions) : Call → ParseState → Nat → Prop where
  | made (c : Call) (s : ParseState) : Opens o c s 1
  | first {l : Level} {s : ParseState} {n : Nat} (h : Opens o (.operand l) s n) :
      Opens o (.expression l) s (n + 1)
  | round {l : Level} {s s₁ : ParseState} {left : Formula} {op : Connective} {lexeme : Text}
      {ts : List Token} {n : Nat} (loops : l.Loops o s left s₁)
      (hs : s₁.rest = ⟨.connective op, lexeme⟩ :: ts) (hl : l = .tier op.tier)
      (h : Opens o (.operand l) s₁.advance n) : Opens o (.expression l) s (n + 1)
  | tighter {l l' : Level} {s : ParseState} {n : Nat} (hnext : l.next? = some l')
      (h : Opens o (.expression l') s n) : Opens o (.operand l) s (n + 1)
  | tightest {l : Level} {s : ParseState} {n : Nat} (hnext : l.next? = none)
      (h : Opens o .factor s n) : Opens o (.operand l) s (n + 1)
  | negation {s : ParseState} {t : Token} {ts : List Token} {n : Nat} (hs : s.rest = t :: ts)
      (ht : t.kind = .negation) (hnesting : s.nesting + 1 ≤ o.maxNesting)
      (h : Opens o .factor s.advance.enter n) : Opens o .factor s (n + 1)
  | group {s : ParseState} {t : Token} {ts : List Token} {n : Nat} (hs : s.rest = t :: ts)
      (ht : t.kind = .openParen) (hnesting : s.nesting + 1 ≤ o.maxNesting)
      (h : Opens o (.expression .loosest) s.advance.enter n) : Opens o .factor s (n + 1)

/-- How many calls are open, from this one on, when a factor looks at the next token. -/
def Call.height : Call → Nat
  | expression l => 2 * l.rank + 3
  | operand l => 2 * l.rank + 2
  | factor => 1

theorem Level.Loops.nesting_eq (h : l.Loops o s f s₁) : s₁.nesting = s.nesting := by
  have hread : ∀ {s s' : ParseState} {f : Formula}, read o l.operand s = .ok (f, s') →
      s'.nesting = s.nesting := by
    intro s s' f h
    obtain ⟨ts, rest, d, -, -, -, rfl⟩ := read_eq_ok_iff.mp h
    rfl
  induction h with
  | first h => exact hread h
  | next before hs hl h hdepth ih => exact (hread h).trans ih

/-- For each further negation or group that the limit allows there are at most as many calls as a
whole expression needs up to its first token. -/
theorem Call.Opens.le (h : c.Opens o s n) :
    n ≤ 11 * (o.maxNesting - s.nesting) + c.height := by
  induction h with
  | made c s => cases c <;> rw [height] <;> omega
  | first h ih =>
      simp only [height] at ih ⊢
      omega
  | @round l s s₁ left op lexeme ts n loops hs hl h ih =>
      have hnesting : s₁.advance.nesting = s.nesting := loops.nesting_eq
      rw [height, hnesting] at ih
      rw [height]
      omega
  | tighter hnext h ih =>
      have hrank := Level.rank_of_next? hnext
      simp only [height] at ih ⊢
      omega
  | tightest hnext h ih =>
      simp only [height] at ih ⊢
      omega
  | @negation s t ts n hs ht hnesting h ih =>
      have henter : s.advance.enter.nesting = s.nesting + 1 := rfl
      rw [height, henter] at ih
      rw [height]
      omega
  | @group s t ts n hs ht hnesting h ih =>
      have henter : s.advance.enter.nesting = s.nesting + 1 := rfl
      rw [height, Level.rank, henter] at ih
      rw [height]
      omega

theorem Call.Opens.of_factor (h : Call.factor.Opens o s n) :
    (Call.expression .loosest).Opens o s (n + 10) :=
  .first <| .tighter rfl <| .first <| .tighter rfl <| .first <| .tighter rfl <| .first <|
    .tighter rfl <| .first <| .tightest rfl h

/-- Groups that lie in each other have eleven calls open each. -/
theorem Call.opens_of_groups {groups : Nat} {ts : List Token}
    (hs : s.rest = List.replicate groups ⟨.openParen, ['(']⟩ ++ ts)
    (hnesting : s.nesting + groups ≤ o.maxNesting) :
    (Call.expression .loosest).Opens o s (11 * (groups + 1)) := by
  induction groups generalizing s with
  | zero => exact (Call.Opens.made _ s).of_factor
  | succ groups ih =>
      have hrest : s.advance.enter.rest = List.replicate groups ⟨.openParen, ['(']⟩ ++ ts := by
        show s.rest.tail = _
        rw [hs]
        rfl
      have henter : s.advance.enter.nesting = s.nesting + 1 := rfl
      have hopens := ih hrest (by omega)
      exact (Call.Opens.group hs rfl (by omega) hopens).of_factor

end Parser

namespace Derivation

/-- A variable in groups that lie in each other. -/
def grouped : Nat → List Token
  | 0 => [⟨.var, ['p']⟩]
  | n + 1 => ⟨.openParen, ['(']⟩ :: (grouped n ++ [⟨.closeParen, [')']⟩])

theorem grouped_eq (n : Nat) :
    ∃ ts, grouped n = List.replicate n ⟨.openParen, ['(']⟩ ++ ts := by
  induction n with
  | zero => exact ⟨_, rfl⟩
  | succ n ih =>
      obtain ⟨ts, hts⟩ := ih
      exact ⟨ts ++ [⟨.closeParen, [')']⟩], by rw [grouped, hts, List.append_assoc]; rfl⟩

theorem exists_grouped (n : Nat) :
    ∃ d : Derivation .factor (grouped n) (.var ['p'] ['p']), d.nesting = n := by
  induction n with
  | zero => exact ⟨.var ['p'], rfl⟩
  | succ n ih =>
      obtain ⟨d, hnesting⟩ := ih
      exact ⟨@group _ _ _ _ (@ofFactor .loose _ _ d), congrArg (· + 1) hnesting⟩

theorem plain_grouped (marker : Option Char) (n : Nat) :
    ∀ t ∈ grouped n, t.Plain marker := by
  induction n with
  | zero => exact List.forall_mem_singleton.mpr (Token.plain_of_none marker (by decide))
  | succ n ih => exact plain_group ih

end Derivation

namespace Statement

variable {o : ParseOptions}

/-- While a text is read, or while a formula of the statement that it is gets evaluated, printed or
typeset, there is a time at which so many calls are open. -/
def Opens (o : ParseOptions) (text : Text) (n : Nat) : Prop :=
  (∃ ts, Token.lex o.marker text = .ok ts ∧
    (Parser.Call.expression .loosest).Opens o (.start ts) n) ∨
  ∃ s, parse o text = .ok s ∧ ∃ f ∈ s.root :: s.subExpressions, n ≤ f.depth

theorem Opens.le {text : Text} {n : Nat} (h : Opens o text n) :
    n ≤ max (11 * (o.maxNesting + 1)) (o.maxTreeDepth + o.maxNesting - 1) := by
  rcases h with ⟨ts, -, hopens⟩ | ⟨s, hs, f, hf, hn⟩
  · have hle := hopens.le
    rw [Parser.Call.height, Parser.Level.rank] at hle
    have hstart : (ParseState.start ts).nesting = 0 := rfl
    omega
  · have hdepth := depth_le_of_parse hs hf
    omega

/-- Some statement has as many calls open as the limits allow. -/
theorem exists_opens (o : ParseOptions) :
    ∃ text s, parse o text = .ok s ∧
      Opens o text (max (11 * (o.maxNesting + 1)) (o.maxTreeDepth + o.maxNesting - 1)) := by
  rcases Nat.le_total (o.maxTreeDepth + o.maxNesting - 1) (11 * (o.maxNesting + 1)) with hle | hle
  · rw [Nat.max_eq_left hle]
    obtain ⟨d, hnesting⟩ := Derivation.exists_grouped o.maxNesting
    have hfit : d.Fits o 0 :=
      ⟨by omega, Formula.compoundsWithin_var o.maxTreeDepth _ _⟩
    have hplain := Derivation.plain_grouped o.marker o.maxNesting
    have hlex := Token.lex_spelled hplain
    obtain ⟨s, hs, -⟩ := (exists_root_iff hlex).mpr ⟨@Derivation.ofFactor .loose _ _ d, hfit⟩
    obtain ⟨ts, hts⟩ := Derivation.grouped_eq o.maxNesting
    refine ⟨_, s, hs, .inl ⟨_, hlex, Parser.Call.opens_of_groups hts ?_⟩⟩
    exact Nat.le_of_eq (Nat.zero_add _)
  · rw [Nat.max_eq_right hle]
    obtain ⟨text, s, hs, hdepth⟩ := exists_parse_depth_group o
    exact ⟨text, s, hs, .inr ⟨s, hs, s.root, List.mem_cons_self, Nat.le_of_eq hdepth.symm⟩⟩

end Statement

end Sentential
