import Sentential.Proofs.Printing
import Sentential.Proofs.TreeDepth

/-!
# How deep recursion on a formula goes

A formula is evaluated, printed and typeset by functions that call themselves on its immediate parts
from left to right, and on nothing else. Such a function is told by what it answers for a leaf and by
what it does between the calls: a negation may be answered before its operand is looked at, and a
compound when only the left operand has been, which is how evaluation and printing come to an end
where something has failed. `Recursion` holds just that, so what there is to say about the depth of
recursion is said once.

On a stack with room for as many calls as the formula is deep the answer comes out, and where no call
is spared it comes out on no smaller one. So a limit on the depth of formulas is a limit on the stack,
and the parser, which has no limit on the depth as such, has one in effect: the two limits that it has
make up one together, some statement is as deep as that, and nothing about it lets any of the three
functions get along with less.
-/

namespace Sentential

/-- How a function goes on that has just looked at a part: with an answer, or with a call on the next
part, from whose answer it makes its own. -/
inductive Recursion.Next (β : Type) where
  | answer (b : β)
  | call (k : β → β)

/-- A function on formulas that calls itself on the immediate parts from left to right. -/
structure Recursion (β : Type) where
  literal : Text → β
  var : Text → Text → β
  not : Text → Recursion.Next β
  binary : Connective → Text → β → Recursion.Next β

namespace Recursion

variable {β : Type} {r : Recursion β} {room : Nat} {f : Formula}

/-- The answer for a formula. -/
def answer (r : Recursion β) : Formula → β
  | .literal lexeme => r.literal lexeme
  | .var lexeme name => r.var lexeme name
  | .not lexeme f =>
    match r.not lexeme with
    | .answer b => b
    | .call k => k (r.answer f)
  | .binary op lexeme f g =>
    match r.binary op lexeme (r.answer f) with
    | .answer b => b
    | .call k => k (r.answer g)

/-- The answer that comes out on a stack with room for so many calls, if it does not overflow. -/
def answerWithin (r : Recursion β) : Nat → Formula → Option β
  | 0, _ => none
  | _ + 1, .literal lexeme => some (r.literal lexeme)
  | _ + 1, .var lexeme name => some (r.var lexeme name)
  | room + 1, .not lexeme f =>
    match r.not lexeme with
    | .answer b => some b
    | .call k => (r.answerWithin room f).map k
  | room + 1, .binary op lexeme f g =>
    match r.answerWithin room f with
    | none => none
    | some a =>
      match r.binary op lexeme a with
      | .answer b => some b
      | .call k => (r.answerWithin room g).map k

/-- No call is spared, for the formula or for any part of it. -/
def CallsAll (r : Recursion β) : Formula → Prop
  | .literal _ | .var _ _ => True
  | .not lexeme f => (∃ k, r.not lexeme = .call k) ∧ r.CallsAll f
  | .binary op lexeme f g =>
    (∃ k, r.binary op lexeme (r.answer f) = .call k) ∧ r.CallsAll f ∧ r.CallsAll g

theorem answerWithin_of_depth_le (h : f.depth ≤ room) :
    r.answerWithin room f = some (r.answer f) := by
  induction f generalizing room with
  | literal lexeme | var lexeme name =>
      obtain ⟨room, rfl⟩ : ∃ n, room = n + 1 := ⟨room - 1, by rw [Formula.depth] at h; omega⟩
      rfl
  | not lexeme f ih =>
      rw [Formula.depth] at h
      obtain ⟨room, rfl⟩ : ∃ n, room = n + 1 := ⟨room - 1, by omega⟩
      rw [answerWithin, answer, ih (by omega)]
      cases r.not lexeme <;> rfl
  | binary op lexeme f g ihf ihg =>
      rw [Formula.depth] at h
      obtain ⟨room, rfl⟩ : ∃ n, room = n + 1 := ⟨room - 1, by omega⟩
      rw [answerWithin, answer, ihf (by omega), ihg (by omega)]
      dsimp only
      cases r.binary op lexeme (r.answer f) <;> rfl

theorem answerWithin_of_lt_depth (hcalls : r.CallsAll f) (h : room < f.depth) :
    r.answerWithin room f = none := by
  induction f generalizing room with
  | literal lexeme | var lexeme name =>
      obtain rfl : room = 0 := by rw [Formula.depth] at h; omega
      rfl
  | not lexeme f ih =>
      obtain ⟨⟨k, hk⟩, hf⟩ := hcalls
      rw [Formula.depth] at h
      cases room with
      | zero => rfl
      | succ room =>
          rw [answerWithin, hk, ih hf (by omega)]
          rfl
  | binary op lexeme f g ihf ihg =>
      obtain ⟨⟨k, hk⟩, hf, hg⟩ := hcalls
      rw [Formula.depth] at h
      cases room with
      | zero => rfl
      | succ room =>
          rw [answerWithin]
          by_cases hroom : room < f.depth
          · rw [ihf hf hroom]
          · rw [answerWithin_of_depth_le (Nat.le_of_not_lt hroom)]
            dsimp only
            rw [hk, ihg hg (by omega)]
            rfl

/-! ## Evaluation, printing and typesetting

The two functions that can fail answer for a compound when its left operand has failed, and printing
answers for a negation without a lexeme before it looks further. Where they succeed they have called
themselves on every part. -/

/-- Evaluation under an assignment. -/
def evaluation (a : Assignment) : Recursion (Except Undefined Bool) where
  literal lexeme := .ok (Formula.literalValue lexeme)
  var _ name := a.get (.atom name)
  not _ := .call (Except.map (!·))
  binary op _
    | .error u => .answer (.error u)
    | .ok b => .call (Except.map (op.apply b))

/-- Printing, which fails at a negation without a lexeme. -/
def printing : Recursion (Option Text) where
  literal lexeme := some lexeme
  var _ name := some name
  not lexeme :=
    match lexeme.getLast? with
    | none => .answer none
    | some c => .call (Option.map fun t => lexeme ++ if Text.isAlphanumeric c then ' ' :: t else t)
  binary _ lexeme
    | none => .answer none
    | some t => .call (Option.map fun u => '(' :: t ++ ' ' :: lexeme ++ ' ' :: u ++ [')'])

/-- Typesetting. -/
def typesetting : Recursion Text where
  literal lexeme := if Formula.literalValue lexeme then "\\top".toList else "\\bot".toList
  var _ name := name
  not _ := .call ("\\lnot ".toList ++ ·)
  binary op _ t := .call fun u => '(' :: t ++ ' ' :: op.latex ++ ' ' :: u ++ [')']

theorem answer_evaluation (a : Assignment) (f : Formula) : (evaluation a).answer f = f.eval a := by
  induction f with
  | literal lexeme | var lexeme name => rfl
  | not lexeme f ih =>
      rw [Formula.eval_not, ← ih]
      rfl
  | binary op lexeme f g ihf ihg =>
      rw [Formula.eval_binary, ← ihf, ← ihg, answer]
      cases (evaluation a).answer f <;> rfl

theorem answer_printing (f : Formula) : printing.answer f = f.print? := by
  induction f with
  | literal lexeme | var lexeme name => rfl
  | not lexeme f ih =>
      rw [Formula.print?, ← ih, answer]
      generalize printing.answer f = printed
      rw [printing]
      dsimp only
      cases lexeme.getLast? with
      | none => rfl
      | some c => cases printed <;> rfl
  | binary op lexeme f g ihf ihg =>
      rw [Formula.print?, ← ihf, ← ihg, answer]
      cases printing.answer f with
      | none => rfl
      | some t => cases printing.answer g <;> rfl

theorem answer_typesetting (f : Formula) : typesetting.answer f = f.latex := by
  induction f with
  | literal lexeme | var lexeme name => rfl
  | not lexeme f ih => exact congrArg ("\\lnot ".toList ++ ·) ih
  | binary op lexeme f g ihf ihg =>
      exact congrArg₂ (fun t u => '(' :: t ++ ' ' :: op.latex ++ ' ' :: u ++ [')']) ihf ihg

theorem callsAll_evaluation {a : Assignment} {b : Bool} (h : f.eval a = .ok b) :
    (evaluation a).CallsAll f := by
  induction f generalizing b with
  | literal lexeme | var lexeme name => trivial
  | not lexeme f ih =>
      rw [Formula.eval] at h
      split at h
      · cases h
      · next c hc => exact ⟨⟨_, rfl⟩, ih hc⟩
  | binary op lexeme f g ihf ihg =>
      rw [Formula.eval] at h
      split at h
      · cases h
      · next c hc =>
          split at h
          · cases h
          · next d hd =>
              refine ⟨⟨Except.map (op.apply c), ?_⟩, ihf hc, ihg hd⟩
              rw [answer_evaluation, hc]
              rfl

theorem callsAll_printing {printed : Text} (h : f.print? = some printed) :
    printing.CallsAll f := by
  induction f generalizing printed with
  | literal lexeme | var lexeme name => trivial
  | not lexeme f ih =>
      rw [Formula.print?] at h
      split at h
      · next c t hlast ht =>
          refine ⟨?_, ih ht⟩
          rw [printing]
          dsimp only
          rw [hlast]
          exact ⟨_, rfl⟩
      · cases h
  | binary op lexeme f g ihf ihg =>
      rw [Formula.print?] at h
      split at h
      · next t u ht hu =>
          refine ⟨?_, ihf ht, ihg hu⟩
          rw [answer_printing, ht]
          exact ⟨_, rfl⟩
      · cases h

theorem callsAll_typesetting (f : Formula) : typesetting.CallsAll f := by
  induction f with
  | literal lexeme | var lexeme name => trivial
  | not lexeme f ih => exact ⟨⟨_, rfl⟩, ih⟩
  | binary op lexeme f g ihf ihg => exact ⟨⟨_, rfl⟩, ihf, ihg⟩

end Recursion

namespace Statement

/-- Everything in a statement that was read is at most as deep as the two limits allow together, so
on a stack with that much room it is evaluated, printed and typeset. Some statement is as deep, and
none of the three comes out for it on a smaller stack. -/
theorem depth_le_limits (o : ParseOptions) :
    let limit := max (o.maxNesting + 1) (o.maxTreeDepth + o.maxNesting - 1)
    (∀ text s, parse o text = .ok s → ∀ f ∈ s.root :: s.subExpressions,
      f.depth ≤ limit ∧
      (∀ a, (Recursion.evaluation a).answerWithin limit f = some (f.eval a)) ∧
      Recursion.printing.answerWithin limit f = some f.print? ∧
      Recursion.typesetting.answerWithin limit f = some f.latex) ∧
    ∃ text s, parse o text = .ok s ∧ s.root.depth = limit ∧
      ∀ room < limit,
        (∀ a : Assignment, (∀ x ∈ s.atoms, ∃ b, a.get (.name x) = .ok b) →
          (Recursion.evaluation a).answerWithin room s.root = none) ∧
        Recursion.printing.answerWithin room s.root = none ∧
        Recursion.typesetting.answerWithin room s.root = none := by
  intro limit
  refine ⟨fun text s hs f hf => ?_, ?_⟩
  · have hdepth : f.depth ≤ limit := depth_le_of_parse hs hf
    refine ⟨hdepth, fun a => ?_, ?_, ?_⟩
    · rw [Recursion.answerWithin_of_depth_le hdepth, Recursion.answer_evaluation]
    · rw [Recursion.answerWithin_of_depth_le hdepth, Recursion.answer_printing]
    · rw [Recursion.answerWithin_of_depth_le hdepth, Recursion.answer_typesetting]
  · obtain ⟨text, s, hs, hdepth⟩ : ∃ text s, parse o text = .ok s ∧ s.root.depth = limit := by
      rcases Nat.le_total (o.maxNesting + 1) (o.maxTreeDepth + o.maxNesting - 1) with hle | hle
      · rw [show limit = _ from Nat.max_eq_right hle]
        exact exists_parse_depth_group o
      · rw [show limit = _ from Nat.max_eq_left hle]
        exact exists_parse_depth_leaf o
    obtain ⟨printed, hprinted⟩ := exists_print hs List.mem_cons_self
    refine ⟨text, s, hs, hdepth, fun room hroom => ?_⟩
    rw [← hdepth] at hroom
    refine ⟨fun a ha => ?_, ?_, ?_⟩
    · have heval := eval_of_knows_used (fun x hx =>
        Assignment.knows_iff.mpr (ha x (mem_atoms_of_used (.parse hs) hx))) s.root
          List.mem_cons_self
      exact Recursion.answerWithin_of_lt_depth (Recursion.callsAll_evaluation heval) hroom
    · exact Recursion.answerWithin_of_lt_depth (Recursion.callsAll_printing hprinted) hroom
    · exact Recursion.answerWithin_of_lt_depth (Recursion.callsAll_typesetting s.root) hroom

end Statement

end Sentential
