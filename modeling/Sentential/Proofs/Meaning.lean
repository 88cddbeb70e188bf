import Sentential.Table.Outcome

/-!
# What evaluation computes

A formula means a truth value once its names have truth values. Evaluation computes the meaning and
needs the names: it asks for every name in the formula, from left to right, whatever the values of
the others are, and it stops at the first that has no value. So an evaluation is described by three
things, the names it asks for, the meaning it gives, and what is known, and this holds of a formula,
of a list of formulas, of a statement and of a statement under one assignment after another.

`whenKnown` puts the three together, and one law carries everything: two evaluations in sequence ask
for the names of the first and then for those of the second. What comes out for a formula is that
its evaluation is strict: no operand is skipped because of the value of another.
-/

namespace Sentential

/-- The value, provided that all names are known; otherwise the failure for the first that is
not. -/
def whenKnown {α : Type} (known : Text → Bool) (source : Option Text) (names : List Text)
    (value : α) : Except Undefined α :=
  match names.find? fun name => !known name with
  | some name => .error ⟨.name name, source⟩
  | none => .ok value

section whenKnown

variable {α β γ : Type} {known : Text → Bool} {source : Option Text} {xs ys : List Text}

theorem whenKnown_map (f : α → β) (a : α) :
    (whenKnown known source xs a).map f = whenKnown known source xs (f a) := by
  unfold whenKnown
  cases xs.find? fun name => !known name <;> rfl

/-- What asks for names, and then for others, asks for both in their order. -/
theorem whenKnown_bind_of_eq {a : α} {b : β} {f : α → Except Undefined β}
    (h : f a = whenKnown known source ys b) :
    (whenKnown known source xs a).bind f = whenKnown known source (xs ++ ys) b := by
  unfold whenKnown
  rw [List.find?_append]
  cases xs.find? fun name => !known name with
  | some name => rfl
  | none => exact h

/-- One evaluation after another asks for the names of both in their order. -/
theorem whenKnown_bind (f : α → β → γ) (a : α) (b : β) :
    ((whenKnown known source xs a).bind fun a => (whenKnown known source ys b).map (f a)) =
      whenKnown known source (xs ++ ys) (f a b) :=
  whenKnown_bind_of_eq (whenKnown_map (f a) b)

theorem whenKnown_append_self (a : α) :
    whenKnown known source (xs ++ xs) a = whenKnown known source xs a := by
  unfold whenKnown
  rw [List.find?_append, Option.or_self]

theorem whenKnown_eq_ok_iff {a b : α} :
    whenKnown known source xs a = .ok b ↔ (∀ x ∈ xs, known x = true) ∧ a = b := by
  have hall : (xs.find? fun name => !known name) = none ↔ ∀ x ∈ xs, known x = true := by
    simp [List.find?_eq_none]
  rw [← hall, whenKnown]
  cases xs.find? fun name => !known name <;> simp

theorem whenKnown_of_known (h : ∀ x ∈ xs, known x = true) (a : α) :
    whenKnown known source xs a = .ok a :=
  whenKnown_eq_ok_iff.mpr ⟨h, rfl⟩

theorem whenKnown_eq_error_iff {a : α} {u : Undefined} :
    whenKnown known source xs a = .error u ↔
      ∃ before x after, xs = before ++ x :: after ∧ (∀ y ∈ before, known y = true) ∧
        known x = false ∧ u = ⟨.name x, source⟩ := by
  have hfirst : whenKnown known source xs a = .error u ↔
      ∃ x, (xs.find? fun name => !known name) = some x ∧ u = ⟨.name x, source⟩ := by
    rw [whenKnown]
    cases xs.find? fun name => !known name <;> simp [eq_comm]
  rw [hfirst]
  constructor
  · rintro ⟨x, hx, rfl⟩
    obtain ⟨hx, before, after, hxs, hbefore⟩ := List.find?_eq_some_iff_append.mp hx
    exact ⟨before, x, after, hxs, fun y hy => by simpa using hbefore y hy, by simpa using hx, rfl⟩
  · rintro ⟨before, x, after, hxs, hbefore, hx, rfl⟩
    refine ⟨x, List.find?_eq_some_iff_append.mpr ⟨by simp [hx], before, after, hxs, ?_⟩, rfl⟩
    exact fun y hy => by simp [hbefore y hy]

end whenKnown

/-! ## Formulas

The meaning follows the formula and asks for nothing. That evaluation computes it is an induction
over the formula in which negations map and connectives bind. -/

namespace Assignment

/-- Whether a name has a value. -/
def knows (a : Assignment) (name : Text) : Bool :=
  (a.value? name).isSome

/-- The value of a name that has one. -/
def truth (a : Assignment) (name : Text) : Bool :=
  (a.value? name).getD false

theorem get_eq (a : Assignment) (name : Text) :
    a.get (.name name) = whenKnown a.knows a.source [name] (a.truth name) := by
  simp only [get, Key.name?, Key.reported, Option.bind_some, whenKnown, knows, truth]
  cases h : a.value? name <;> simp [h]

theorem knows_iff {a : Assignment} {name : Text} :
    a.knows name = true ↔ ∃ b, a.get (.name name) = .ok b := by
  rw [get_eq, whenKnown, List.find?_singleton]
  cases a.knows name <;> simp

theorem knows_of_value? {a : Assignment} {name : Text} {b : Bool} (h : a.value? name = some b) :
    a.knows name = true := by
  rw [knows, h, Option.isSome_some]

theorem truth_of_value? {a : Assignment} {name : Text} {b : Bool} (h : a.value? name = some b) :
    a.truth name = b := by
  rw [truth, h, Option.getD_some]

end Assignment

namespace Formula

/-- What a formula means where `v` says which names are true. -/
def meaning (v : Text → Bool) : Formula → Bool
  | literal lexeme => literalValue lexeme
  | var _ name => v name
  | not _ f => !f.meaning v
  | binary op _ f g => op.apply (f.meaning v) (g.meaning v)

theorem meaning_congr {v w : Text → Bool} {f : Formula} (h : ∀ x ∈ f.names, v x = w x) :
    f.meaning v = f.meaning w := by
  induction f with
  | literal lexeme => rfl
  | var lexeme name => exact h name (by simp [names])
  | not lexeme f ih => rw [meaning, meaning, ih h]
  | binary op lexeme f g ihf ihg =>
      rw [meaning, meaning, ihf fun x hx => h x (List.mem_append_left _ hx),
        ihg fun x hx => h x (List.mem_append_right _ hx)]

theorem eval_not (a : Assignment) (lexeme : Text) (f : Formula) :
    (not lexeme f).eval a = (f.eval a).map (!·) := by
  rw [eval]
  cases f.eval a <;> rfl

theorem eval_binary (a : Assignment) (op : Connective) (lexeme : Text) (f g : Formula) :
    (binary op lexeme f g).eval a = (f.eval a).bind fun b => (g.eval a).map (op.apply b) := by
  rw [eval]
  cases f.eval a with
  | error u => rfl
  | ok b => cases g.eval a <;> rfl

theorem eval_eq (a : Assignment) (f : Formula) :
    f.eval a = whenKnown a.knows a.source f.names (f.meaning a.truth) := by
  induction f with
  | literal lexeme => rfl
  | var lexeme name => exact a.get_eq name
  | not lexeme f ih => rw [eval_not, ih, whenKnown_map, meaning, names]
  | binary op lexeme f g ihf ihg => rw [eval_binary, ihf, ihg, whenKnown_bind, meaning, names]

theorem eval_of_knows {a : Assignment} {f : Formula} (h : ∀ x ∈ f.names, a.knows x = true) :
    f.eval a = .ok (f.meaning a.truth) := by
  rw [eval_eq, whenKnown_of_known h]

theorem evalList_cons (a : Assignment) (f : Formula) (fs : List Formula) :
    evalList a (f :: fs) = (f.eval a).bind fun b => (evalList a fs).map (b :: ·) := by
  rw [evalList]
  cases f.eval a with
  | error u => rfl
  | ok b => cases evalList a fs <;> rfl

theorem evalList_eq (a : Assignment) (fs : List Formula) :
    evalList a fs =
      whenKnown a.knows a.source (fs.flatMap names) (fs.map (meaning a.truth)) := by
  induction fs with
  | nil => rfl
  | cons f fs ih =>
      rw [evalList_cons, eval_eq, ih, whenKnown_bind, List.flatMap_cons, List.map_cons]

end Formula

/-! ## Truth conditions

When a formula is true is said once more without truth tables: a connective of propositions takes
the place of each connective of truth values. -/

namespace Connective

/-- When a compound is true, from the truth of its operands. -/
def Holds : Connective → Prop → Prop → Prop
  | and, p, q => p ∧ q
  | or, p, q => p ∨ q
  | xor, p, q => ¬(p ↔ q)
  | nand, p, q => ¬(p ∧ q)
  | implies, p, q => p → q
  | iff, p, q => p ↔ q

theorem apply_eq_true_iff (op : Connective) (b c : Bool) :
    op.apply b c = true ↔ op.Holds (b = true) (c = true) := by
  cases op <;> cases b <;> cases c <;> simp [apply, Holds]

end Connective

namespace Formula

/-- When a formula is true, where `p` says which names are. A literal is true in six spellings. -/
def Holds (p : Text → Prop) : Formula → Prop
  | literal lexeme => lexeme ∈ ["true".toList, ['t'], ['T'], ['y'], ['Y'], ['1']]
  | var _ name => p name
  | not _ f => ¬f.Holds p
  | binary op _ f g => op.Holds (f.Holds p) (g.Holds p)

theorem meaning_eq_true_iff (v : Text → Bool) (f : Formula) :
    f.meaning v = true ↔ f.Holds fun x => v x = true := by
  induction f with
  | literal lexeme => exact List.contains_iff_mem
  | var lexeme name => rfl
  | not lexeme f ih => rw [meaning, Holds, ← ih, Bool.not_eq_true', Bool.not_eq_true]
  | binary op lexeme f g ihf ihg => rw [meaning, Connective.apply_eq_true_iff, Holds, ihf, ihg]

/-- Evaluation is strict. It succeeds if and only if every name in the formula has a value; it then
says whether the formula is true, and nothing but the values of these names counts. Otherwise it
fails with the first name, from the left, that has no value, whatever the values of the others. -/
theorem eval_strict (a : Assignment) (f : Formula) :
    ((∃ b, f.eval a = .ok b) ↔ ∀ x ∈ f.names, ∃ b, a.value? x = some b) ∧
    (∀ b, f.eval a = .ok b →
      (b = true ↔ f.Holds fun x => a.value? x = some true) ∧
      ∀ c : Assignment, (∀ x ∈ f.names, c.value? x = a.value? x) → f.eval c = .ok b) ∧
    ∀ u, f.eval a = .error u ↔
      ∃ before x after, f.names = before ++ x :: after ∧
        (∀ y ∈ before, ∃ b, a.value? y = some b) ∧ a.value? x = none ∧ u = ⟨.name x, a.source⟩ := by
  have hknows : ∀ x, a.knows x = true ↔ ∃ b, a.value? x = some b := fun x =>
    Option.isSome_iff_exists
  have hunknown : ∀ x, a.knows x = false ↔ a.value? x = none := fun x =>
    Option.isSome_eq_false_iff.trans Option.isNone_iff_eq_none
  have htruth : (fun x => a.truth x = true) = fun x => a.value? x = some true := by
    funext x
    rw [Assignment.truth]
    cases a.value? x <;> simp
  refine ⟨?_, fun b hb => ?_, fun u => ?_⟩
  · rw [eval_eq]
    simp [whenKnown_eq_ok_iff, hknows]
  · rw [eval_eq, whenKnown_eq_ok_iff] at hb
    obtain ⟨hall, rfl⟩ := hb
    refine ⟨by rw [meaning_eq_true_iff, htruth], fun c hc => ?_⟩
    have hcall : ∀ x ∈ f.names, c.knows x = true := fun x hx => by
      rw [Assignment.knows, hc x hx, ← Assignment.knows, hall x hx]
    rw [eval_of_knows hcall]
    exact congrArg Except.ok (meaning_congr fun x hx => by
      rw [Assignment.truth, Assignment.truth, hc x hx])
  · rw [eval_eq, whenKnown_eq_error_iff]
    simp only [hknows, hunknown]

/-- A false operand does not spare the other one. -/
example :
    (binary .and "and".toList (literal ['F']) (var ['q'] ['q'])).eval ⟨[(['q'], none)], none⟩ =
      .error ⟨.name ['q'], none⟩ := rfl

end Formula

/-! ## Statements

A statement is evaluated after its marked sub-expressions. Under several assignments that know the
same names it fails under the first of them or under none. -/

namespace Statement

/-- The names that the formulas of a statement use, in the order in which they are asked for: those
of the marked sub-expressions first. -/
def used (s : Statement) : List Text :=
  s.subExpressions.flatMap Formula.names ++ s.root.names

theorem mem_used {s : Statement} {x : Text} :
    x ∈ s.used ↔ ∃ f ∈ s.root :: s.subExpressions, x ∈ f.names := by
  simp [used, or_comm]

/-- What a statement and its marked sub-expressions mean where `v` says which names are true. -/
def meaning (s : Statement) (v : Text → Bool) : Outcome :=
  ⟨s.subExpressions.map (Formula.meaning v), s.root.meaning v⟩

theorem meaning_congr {s : Statement} {v w : Text → Bool} (h : ∀ x ∈ s.used, v x = w x) :
    s.meaning v = s.meaning w := by
  have hformula : ∀ f ∈ s.root :: s.subExpressions, f.meaning v = f.meaning w := fun f hf =>
    Formula.meaning_congr fun x hx => h x (mem_used.mpr ⟨f, hf, hx⟩)
  obtain ⟨hroot, hmarked⟩ := List.forall_mem_cons.mp hformula
  rw [meaning, meaning, hroot, List.map_congr_left hmarked]

/-- An assignment that knows all names in use gives every formula of the statement its meaning. -/
theorem eval_of_knows_used {s : Statement} {a : Assignment} (h : ∀ x ∈ s.used, a.knows x = true) :
    ∀ f ∈ s.root :: s.subExpressions, f.eval a = .ok (f.meaning a.truth) := by
  intro f hf
  exact Formula.eval_of_knows fun x hx => h x (mem_used.mpr ⟨f, hf, hx⟩)

theorem outcome_eq (s : Statement) (a : Assignment) :
    s.outcome a = whenKnown a.knows a.source s.used (s.meaning a.truth) := by
  have hseq : s.outcome a = (Formula.evalList a s.subExpressions).bind fun marked =>
      (s.root.eval a).map (Outcome.mk marked) := by
    rw [outcome]
    cases Formula.evalList a s.subExpressions with
    | error u => rfl
    | ok marked => cases s.root.eval a <;> rfl
  rw [hseq, Formula.evalList_eq, Formula.eval_eq, whenKnown_bind]
  rfl

theorem outcomes_cons (s : Statement) (a : Assignment) (as : List Assignment) :
    s.outcomes (a :: as) = (s.outcome a).bind fun o => (s.outcomes as).map (o :: ·) := by
  rw [outcomes]
  cases s.outcome a with
  | error u => rfl
  | ok o => cases s.outcomes as <;> rfl

theorem outcomes_eq (s : Statement) {known : Text → Bool} {source : Option Text}
    {as : List Assignment} (hne : as ≠ [])
    (h : ∀ a ∈ as, a.knows = known ∧ a.source = source) :
    s.outcomes as =
      whenKnown known source s.used (as.map fun a => s.meaning a.truth) := by
  -- the names that the later assignments ask for are those that the first has asked for already
  induction as with
  | nil => exact absurd rfl hne
  | cons a as ih =>
      obtain ⟨⟨hknown, hsource⟩, hrest⟩ := List.forall_mem_cons.mp h
      rw [outcomes_cons, outcome_eq, hknown, hsource]
      cases as with
      | nil =>
          show (whenKnown known source s.used (s.meaning a.truth)).map (fun o => [o]) = _
          rw [whenKnown_map]
          rfl
      | cons b as =>
          rw [ih (List.cons_ne_nil b as) hrest, whenKnown_bind, whenKnown_append_self]
          rfl

end Statement

end Sentential
