import Sentential.Proofs.OnePass

/-!
# Limits only refuse

The two limits stand in comparisons and nowhere else: one when a negation or a group is opened, one
when a compound has been built. Where a comparison passes under some limits it passes under roomier
ones, and nothing that is computed depends on which they are. So a reading under roomier limits goes
the same way, call by call, until the first comparison that fails under the tighter ones. There the
tighter reading ends for good, with a refusal for depth, because no call takes up a refusal of the
calls it makes.

What the other reading does from there on is of no interest, and the induction never has to follow
it: `SameUnlessDeep` says nothing about the second outcome where the first is a refusal for depth.
-/

namespace Sentential

/-- The same marker, and limits that allow no more. -/
structure ParseOptions.Tighter (o o' : ParseOptions) : Prop where
  marker : o.marker = o'.marker
  maxNesting : o.maxNesting ≤ o'.maxNesting
  maxTreeDepth : o.maxTreeDepth ≤ o'.maxTreeDepth

namespace CompileError

theorem forDepth_tooDeep (limit position : Nat) : (tooDeep limit position).ForDepth :=
  ⟨limit, position, rfl⟩

/-- The first outcome is the second one, unless it is a refusal for depth. -/
inductive SameUnlessDeep {α : Type} : Except CompileError α → Except CompileError α → Prop where
  | accepted (a : α) : SameUnlessDeep (.ok a) (.ok a)
  | refused (e : CompileError) : SameUnlessDeep (.error e) (.error e)
  | deep {e : CompileError} (h : e.ForDepth) (r : Except CompileError α) :
      SameUnlessDeep (.error e) r

namespace SameUnlessDeep

variable {α : Type} {r r' : Except CompileError α}

theorem refl : (r : Except CompileError α) → SameUnlessDeep r r
  | .ok a => .accepted a
  | .error e => .refused e

theorem eq_or_deep (h : SameUnlessDeep r r') : r = r' ∨ ∃ e, r = .error e ∧ e.ForDepth := by
  cases h with
  | accepted a => exact .inl rfl
  | refused e => exact .inl rfl
  | @deep e h r => exact .inr ⟨e, rfl, h⟩

end SameUnlessDeep

end CompileError

namespace Parser

open CompileError

variable {o o' : ParseOptions}

/-- Under tighter limits a phrase is read as under roomier ones, or refused for depth, and so is a
chain. -/
theorem read_tighter (h : o.Tighter o') :
    (∀ phrase s, SameUnlessDeep (read o phrase s) (read o' phrase s)) ∧
      ∀ tier left s, SameUnlessDeep (chain o tier left s) (chain o' tier left s) := by
  have hnesting := h.maxNesting
  have htreeDepth := h.maxTreeDepth
  apply descent (o := o)
  case expression =>
      intro tier s hop hch
      rw [read, read, expression_eq, expression_eq, operand_eq_read, operand_eq_read]
      generalize hr : read o tier.operand s = r, read o' tier.operand s = r' at hop
      cases hop with
      | refused e => exact .refused e
      | deep he => exact .deep he _
      | accepted p => exact hch p.1 p.2 hr
  case chain =>
      intro tier left s ih
      rw [chain_eq o, chain_eq o']
      split
      · next op lexeme ts hs =>
          obtain ⟨hop, hstep⟩ := ih op lexeme ts hs
          split
          · rw [operand_eq_read, operand_eq_read]
            generalize hr : read o tier.operand s.advance = r,
              read o' tier.operand s.advance = r' at hop
            cases hop with
            | refused e => exact .refused e
            | deep he => exact .deep he _
            | accepted p =>
                dsimp only
                split
                · exact .deep (forDepth_tooDeep _ _) _
                · next hdepth =>
                    rw [if_neg (show ¬ _ > o'.maxTreeDepth by omega)]
                    exact hstep p.1 p.2 hr
          · exact .refl _
      · exact .refl _
  case factor =>
      intro s ih
      rw [read, read, factor_eq o, factor_eq o']
      split
      · exact .refl _
      · next t ts hs =>
          have ih' := ih t ts hs
          split
          · exact .refl _
          · exact .refl _
          · split
            · exact .deep (forDepth_tooDeep _ _) _
            · next hlimit =>
                rw [if_neg (show ¬ s.nesting + 1 > o'.maxNesting by omega)]
                have hoperand := ih' .factor
                rw [read, read] at hoperand
                generalize factor o s.advance.enter = r, factor o' s.advance.enter = r' at hoperand
                cases hoperand with
                | refused e => exact .refused e
                | deep he => exact .deep he _
                | accepted p => exact .refl _
          · split
            · exact .deep (forDepth_tooDeep _ _) _
            · next hlimit =>
                rw [if_neg (show ¬ s.nesting + 1 > o'.maxNesting by omega), h.marker]
                have hcontent := ih' (.expression .loose)
                rw [read, read] at hcontent
                generalize expression o .loose s.advance.enter = r,
                  expression o' .loose s.advance.enter = r' at hcontent
                cases hcontent with
                | refused e => exact .refused e
                | deep he => exact .deep he _
                | accepted p => exact .refl _
          · exact .refl _

end Parser

namespace Statement

/-- Limits do nothing but refuse for depth. Whatever the text, what comes of it under the tighter
limits is the very statement or the very refusal that comes of it under the roomier ones, or else a
refusal for depth. -/
theorem parse_tighter {o o' : ParseOptions} (h : o.Tighter o') (text : Text) :
    parse o text = parse o' text ∨ ∃ e, parse o text = .error e ∧ e.ForDepth := by
  rw [parse, parse, ← h.marker]
  split
  · exact .inl rfl
  · next ts hlex =>
      refine CompileError.SameUnlessDeep.eq_or_deep ?_
      rw [ofTokens, ofTokens]
      have hread := (Parser.read_tighter h).1 (.expression .loose) (.start ts)
      rw [Parser.read, Parser.read] at hread
      generalize Parser.expression o .loose (.start ts) = r,
        Parser.expression o' .loose (.start ts) = r' at hread
      cases hread with
      | refused e => exact .refused e
      | deep he => exact .deep he _
      | accepted p => exact .refl _

theorem parse_tighter_doubled_negation :
    let o : ParseOptions := { maxNesting := 1, maxTreeDepth := 2 }
    o.Tighter {} ∧ parse o "!p)".toList = .error (.misplacedToken ⟨.closeParen, [')']⟩ 2) ∧
      parse {} "!p)".toList = .error (.misplacedToken ⟨.closeParen, [')']⟩ 2) ∧
      (∃ s, parse {} "!!p".toList = .ok s) ∧
      ∃ e, parse o "!!p".toList = .error e ∧ e.ForDepth := by
  intro o
  have htighter : o.Tighter {} := ⟨rfl, by decide, by decide⟩
  have hmisplaced : parse o "!p)".toList = .error (.misplacedToken ⟨.closeParen, [')']⟩ 2) := by
    decide +kernel
  let s : Statement := ⟨"!!p".toList, .not ['!'] (.not ['!'] (.var ['p'] ['p'])), [['p']], []⟩
  have hparse : parse {} "!!p".toList = .ok s := by decide +kernel
  have hsame := (parse_tighter htighter "!p)".toList).resolve_right fun ⟨e, he, _, _, hdeep⟩ => by
    rw [hmisplaced, hdeep] at he
    cases he
  refine ⟨htighter, hmisplaced, hsame ▸ hmisplaced, ⟨s, hparse⟩,
    (parse_tighter htighter "!!p".toList).resolve_left fun heq => ?_⟩
  have hne : parse o "!!p".toList ≠ .ok s := by decide +kernel
  exact hne (heq.trans hparse)

end Statement

end Sentential
