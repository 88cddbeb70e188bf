import Mathlib.Control.Monad.Basic
import Sentential.Proofs.Descent

/-!
# Precedence and grouping

A text is a statement exactly when its tokens have a derivation within the limits, and the root is
the formula of that derivation. Since the descent answers once, a list of tokens has at most one
formula, whatever the limits are: two derivations can be read under options wide enough for both.

So the grammar may be taken at its word. Where two connectives stand around a factor, the factor
goes to the left one unless the right one binds tighter. What the left one has before it may be
anything its tier allows, and what the right one has behind it too, so this one rule says both how
tightly the tiers bind and that each of them groups to the left. A negation has no say in it: it is
part of a factor.
-/

namespace Sentential

namespace Derivation

variable {tier tier' : Tier} {ts : List Token} {f : Formula}

/-! ## Tighter phrases stand where looser ones are asked for -/

def ofFactor (d : Derivation .factor ts f) : Derivation (.expression tier) ts f :=
  match tier with
  | .loose => @operand .loose ts f (@operand .middle ts f (@operand .tight ts f d))
  | .middle => @operand .middle ts f (@operand .tight ts f d)
  | .tight => @operand .tight ts f d

def operandOfFactor (d : Derivation .factor ts f) : Derivation tier.operand ts f :=
  match tier with
  | .loose | .middle => ofFactor d
  | .tight => d

def operandOfTighter (h : tier.rank < tier'.rank) (d : Derivation (.expression tier) ts f) :
    Derivation tier'.operand ts f :=
  match tier, tier', h, d with
  | .middle, .loose, _, d => d
  | .tight, .loose, _, d => @operand .middle ts f d
  | .tight, .middle, _, d => d

def loosen (h : tier.rank ≤ tier'.rank) (d : Derivation (.expression tier) ts f) :
    Derivation (.expression tier') ts f :=
  if hlt : tier.rank < tier'.rank then operand (operandOfTighter hlt d)
  else Tier.rank_inj (Nat.le_antisymm h (Nat.le_of_not_lt hlt)) ▸ d

/-! ## One formula for a list of tokens -/

/-- Options that leave room for `m` negations and groups and for compounds of depth `n`. -/
def roomy (m n : Nat) : ParseOptions where
  marker := none
  maxNesting := m + 1
  maxTreeDepth := n + 1
  maxNesting_pos := Nat.succ_pos m
  maxTreeDepth_pos := Nat.succ_pos n

theorem unique {phrase : Phrase} {g : Formula} (d : Derivation phrase ts f)
    (e : Derivation phrase ts g) : f = g := by
  let o := roomy (d.nesting + e.nesting) (f.depth + g.depth)
  have hd : d.Fits o 0 := by
    refine ⟨?_, f.compoundsWithin_depth ?_⟩ <;> simp only [o, roomy] <;> omega
  have he : e.Fits o 0 := by
    refine ⟨?_, g.compoundsWithin_depth ?_⟩ <;> simp only [o, roomy] <;> omega
  have hts : (ParseState.start ts).rest = ts ++ [] := (List.append_nil ts).symm
  have hf := Parser.read_eq_ok_iff.mpr ⟨ts, [], d, hts, hd, looseFrom_nil _, rfl⟩
  have hg := Parser.read_eq_ok_iff.mpr ⟨ts, [], e, hts, he, looseFrom_nil _, rfl⟩
  rw [hf] at hg
  injection hg with hg
  exact (Prod.mk.inj hg).1

/-- A factor between two connectives belongs to the first unless the second binds tighter. -/
theorem nonempty_between (op op' : Connective) (lexeme lexeme' : Text) {us vs ws : List Token}
    {f g h : Formula} (d : Derivation (.expression op.tier) us f) (e : Derivation .factor vs g)
    (k : Derivation op'.tier.operand ws h) :
    Nonempty (Derivation (.expression .loose)
      (us ++ ⟨.connective op, lexeme⟩ :: (vs ++ ⟨.connective op', lexeme'⟩ :: ws))
      (if op.tier.rank ≤ op'.tier.rank then
        .binary op' lexeme' (.binary op lexeme f g) h
      else .binary op lexeme f (.binary op' lexeme' g h))) := by
  have hop : op ∈ op.tier.connectives := Tier.mem_connectives.mpr rfl
  have hop' : op' ∈ op'.tier.connectives := Tier.mem_connectives.mpr rfl
  have hloose : ∀ tier : Tier, tier.rank ≤ Tier.loose.rank := Tier.rank_le
  split
  · next hle =>
      have hleft := loosen hle (@compound _ op lexeme us vs f g hop d (operandOfFactor e))
      have hall := @compound _ op' lexeme' _ ws _ h hop' hleft k
      exact ⟨loosen (hloose _) (by simpa using hall)⟩
  · next hgt =>
      have hright := @compound _ op' lexeme' vs ws g h hop' (ofFactor e) k
      exact ⟨loosen (hloose _)
        (@compound _ op lexeme us _ f _ hop d (operandOfTighter (Nat.lt_of_not_le hgt) hright))⟩

end Derivation

namespace Statement

theorem parse_of_lex {o : ParseOptions} {text : Text} {ts : List Token}
    (h : Token.lex o.marker text = .ok ts) : parse o text = ofTokens o text ts := by
  rw [parse, h]

theorem exists_root_iff {o : ParseOptions} {text : Text} {ts : List Token}
    (hlex : Token.lex o.marker text = .ok ts) {r : Formula} :
    (∃ s, parse o text = .ok s ∧ s.root = r) ↔
      ∃ d : Derivation (.expression .loose) ts r, d.Fits o 0 := by
  rw [parse_of_lex hlex]
  constructor
  · rintro ⟨s, hs, rfl⟩
    obtain ⟨f, d, hd, rfl⟩ := ofTokens_eq_ok_iff.mp hs
    exact ⟨d, hd⟩
  · rintro ⟨d, hd⟩
    exact ⟨_, ofTokens_eq_ok_iff.mpr ⟨r, d, hd, rfl⟩, rfl⟩

/-- The statements that a text can be: its tokens have a derivation within the limits, and the
statement is made of its formula, the names of the tokens and the marked groups. -/
theorem parse_eq_ok_iff {o : ParseOptions} {text : Text} {s : Statement} :
    parse o text = .ok s ↔
      ∃ ts, Token.lex o.marker text = .ok ts ∧
        ∃ f, ∃ d : Derivation (.expression .loose) ts f, d.Fits o 0 ∧
          s = ⟨text, f, Text.sortedSet (ts.foldl ParseState.learn []), d.marks o.marker⟩ := by
  cases hlex : Token.lex o.marker text with
  | error e => simp [parse, hlex]
  | ok ts =>
      rw [parse_of_lex hlex, ofTokens_eq_ok_iff]
      exact ⟨fun h => ⟨ts, rfl, h⟩, fun ⟨us, hus, h⟩ => Except.ok.inj hus ▸ h⟩

theorem exists_derivation_of_parse {o : ParseOptions} {text : Text} {s : Statement}
    (h : parse o text = .ok s) :
    ∃ ts, ∃ d : Derivation (.expression .loose) ts s.root, d.Fits o 0 := by
  obtain ⟨ts, -, f, d, hfit, rfl⟩ := parse_eq_ok_iff.mp h
  exact ⟨ts, d, hfit⟩

/-- A text whose tokens are known is a statement with a given root exactly when the tokens derive
the root, negations and groups nest no deeper than the limit, and no compound of the root is deeper
than the other limit. The root is determined by the tokens, and connectives share the factors
between them by their tiers. -/
theorem exists_parse_root_iff {o : ParseOptions} {text : Text} {ts : List Token}
    (hlex : Token.lex o.marker text = .ok ts) :
    (∀ r, (∃ s, parse o text = .ok s ∧ s.root = r) ↔
      ∃ d : Derivation (.expression .loose) ts r, d.nesting ≤ o.maxNesting ∧
        r.CompoundsWithin o.maxTreeDepth) ∧
    (∀ f g, Derivation (.expression .loose) ts f → Derivation (.expression .loose) ts g → f = g) ∧
    ∀ us op lexeme vs op' lexeme' ws f g h,
      ts = us ++ ⟨.connective op, lexeme⟩ :: (vs ++ ⟨.connective op', lexeme'⟩ :: ws) →
      Derivation (.expression op.tier) us f → Derivation .factor vs g →
      Derivation op'.tier.operand ws h →
      ∀ r, Nonempty (Derivation (.expression .loose) ts r) ↔
        r = if op.tier.rank ≤ op'.tier.rank then
            .binary op' lexeme' (.binary op lexeme f g) h
          else .binary op lexeme f (.binary op' lexeme' g h) := by
  refine ⟨fun r => exists_root_iff hlex, fun f g d e => d.unique e, ?_⟩
  intro us op lexeme vs op' lexeme' ws f g h hts d e k r
  subst hts
  obtain ⟨between⟩ := Derivation.nonempty_between op op' lexeme lexeme' d e k
  constructor
  · rintro ⟨d'⟩
    exact d'.unique between
  · rintro rfl
    exact ⟨between⟩

theorem exists_parse_root_negated_conjunction :
    Token.lex (some '*') "~p&q->r".toList =
      .ok [⟨.negation, ['~']⟩, ⟨.var, ['p']⟩, ⟨.connective .and, ['&']⟩, ⟨.var, ['q']⟩,
        ⟨.connective .implies, ['-', '>']⟩, ⟨.var, ['r']⟩] ∧
    ∃ s, parse {} "~p&q->r".toList = .ok s ∧
      s.root = .binary .implies ['-', '>']
        (.binary .and ['&'] (.not ['~'] (.var ['p'] ['p'])) (.var ['q'] ['q']))
        (.var ['r'] ['r']) := by
  have hlex : Token.lex (some '*') "~p&q->r".toList =
      .ok [⟨.negation, ['~']⟩, ⟨.var, ['p']⟩, ⟨.connective .and, ['&']⟩, ⟨.var, ['q']⟩,
        ⟨.connective .implies, ['-', '>']⟩, ⟨.var, ['r']⟩] := by decide +kernel
  let conj := @Derivation.compound .tight .and ['&'] _ _ _ _ (by decide)
    (.operand (@Derivation.negation ['~'] _ _ (.var ['p']))) (.var ['q'])
  let impl := @Derivation.compound .middle .implies ['-', '>'] _ _ _ _ (by decide)
    (.operand conj) (.operand (.var ['r']))
  exact ⟨hlex, ((exists_parse_root_iff hlex).1 _).mpr
    ⟨@Derivation.operand .loose _ _ impl, by decide, by simp [Formula.depth]⟩⟩

end Statement

end Sentential
