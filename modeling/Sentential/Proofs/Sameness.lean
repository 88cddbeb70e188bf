import Sentential.Proofs.Equivalence

/-!
# Same formulas in each other's place

Sameness looks at lexemes and connectives. What a formula evaluates to, and how it is printed and
typeset, looks at the names of the variables instead, and a variable put together by hand may have a
lexeme that is not its name: such a formula is the same as another that has different values.
`Formula.Named` excludes this and nothing else, since the value of a literal comes from its lexeme.
Between formulas in which every variable goes by its lexeme, sameness is equality, and everything
that is read from a text is of this kind.

Sameness of statements leaves out the texts, so same statements still differ in them. Their tables
show it only in what a failure says about where it comes from.

The column-by-column backend relies on this. What it has worked out for a statement is kept, and
found again by sameness; a later statement gets the columns of the one that came first. That they
are its own columns is an invariant of the cache, whose statements are all of the named kind.
-/

namespace Sentential

namespace Formula

/-- Every variable of the formula goes by its lexeme. -/
def Named : Formula → Prop
  | literal _ => True
  | var lexeme name => lexeme = name
  | not _ f => f.Named
  | binary _ _ f g => f.Named ∧ g.Named

theorem eq_of_same {f g : Formula} (hf : f.Named) (hg : g.Named) (h : f.same g = true) : f = g := by
  induction f generalizing g with
  | literal a =>
      cases g with
      | literal b => rw [beq_iff_eq.mp h]
      | var | not | binary => cases h
  | var a x =>
      cases g with
      | var b y => rw [← show a = x from hf, ← show b = y from hg, beq_iff_eq.mp h]
      | literal | not | binary => cases h
  | not a f ih =>
      cases g with
      | not b f' =>
          rw [same, Bool.and_eq_true, beq_iff_eq] at h
          rw [h.1, ih hf (show f'.Named from hg) h.2]
      | literal | var | binary => cases h
  | binary op a f g ihf ihg =>
      cases g with
      | binary op' b f' g' =>
          simp only [same, Bool.and_eq_true, beq_iff_eq] at h
          obtain ⟨⟨⟨hop, hlexeme⟩, hleft⟩, hright⟩ := h
          rw [hop, hlexeme, ihf hf.1 hg.1 hleft, ihg hf.2 hg.2 hright]
      | literal | var | not => cases h

theorem eq_of_sameList {fs gs : List Formula} (hfs : ∀ f ∈ fs, f.Named) (hgs : ∀ g ∈ gs, g.Named)
    (h : sameList fs gs = true) : fs = gs := by
  induction fs generalizing gs with
  | nil =>
      cases gs with
      | nil => rfl
      | cons => cases h
  | cons f fs ih =>
      cases gs with
      | nil => cases h
      | cons g gs =>
          rw [sameList, Bool.and_eq_true] at h
          obtain ⟨hf, hfs⟩ := List.forall_mem_cons.mp hfs
          obtain ⟨hg, hgs⟩ := List.forall_mem_cons.mp hgs
          rw [eq_of_same hf hg h.1, ih hfs hgs h.2]

/-- Printing fails at a negation without a lexeme, and only there. -/
theorem print?_eq_none_iff {f : Formula} :
    f.print? = none ↔ ∃ path g, f.at? path = some (.not [] g) := by
  induction f with
  | literal lexeme | var lexeme name =>
      refine iff_of_false nofun ?_
      rintro ⟨_ | ⟨i, path⟩, g, hat⟩ <;> cases hat
  | not lexeme f ih =>
      rw [print?]
      cases hlast : lexeme.getLast? with
      | none =>
          rw [List.getLast?_eq_none_iff] at hlast
          exact iff_of_true rfl ⟨[], f, at?_not.mpr (.inl ⟨rfl, by rw [hlast]⟩)⟩
      | some c =>
          have hstep : (∃ path g, (not lexeme f).at? path = some (.not [] g)) ↔
              ∃ path g, f.at? path = some (.not [] g) := by
            constructor
            · rintro ⟨path, g, hat⟩
              obtain ⟨-, heq⟩ | ⟨rest, -, hat⟩ := at?_not.mp hat
              · cases heq
                cases hlast
              · exact ⟨rest, g, hat⟩
            · rintro ⟨path, g, hat⟩
              exact ⟨0 :: path, g, at?_not.mpr (.inr ⟨path, rfl, hat⟩)⟩
          rw [hstep, ← ih]
          cases f.print? <;> simp
  | binary op lexeme f g ihf ihg =>
      have hstep : (∃ path h, (binary op lexeme f g).at? path = some (.not [] h)) ↔
          (∃ path h, f.at? path = some (.not [] h)) ∨
            ∃ path h, g.at? path = some (.not [] h) := by
        constructor
        · rintro ⟨path, h, hat⟩
          obtain ⟨-, heq⟩ | ⟨rest, -, hat⟩ | ⟨rest, -, hat⟩ := at?_binary.mp hat
          · cases heq
          · exact .inl ⟨rest, h, hat⟩
          · exact .inr ⟨rest, h, hat⟩
        · rintro (⟨path, h, hat⟩ | ⟨path, h, hat⟩)
          · exact ⟨0 :: path, h, at?_binary.mpr (.inr (.inl ⟨path, rfl, hat⟩))⟩
          · exact ⟨1 :: path, h, at?_binary.mpr (.inr (.inr ⟨path, rfl, hat⟩))⟩
      rw [hstep, ← ihf, ← ihg, print?]
      cases f.print? <;> cases g.print? <;> simp

end Formula

theorem Derivation.named {phrase : Phrase} {ts : List Token} {f : Formula}
    (d : Derivation phrase ts f) : f.Named := by
  induction d with
  | operand d ih => exact ih
  | compound h d e ihd ihe => exact ⟨ihd, ihe⟩
  | literal lexeme => trivial
  | var lexeme => rfl
  | negation d ih => exact ih
  | group d ih => exact ih

namespace Statement

variable {s t : Statement}

/-- Every variable in the statement goes by its lexeme. -/
def Named (s : Statement) : Prop :=
  ∀ f ∈ s.root :: s.subExpressions, f.Named

theorem named_of_parse {o : ParseOptions} {text : Text} (h : parse o text = .ok s) : s.Named := by
  obtain ⟨ts, -, f, d, -, rfl⟩ := parse_eq_ok_iff.mp h
  refine List.forall_mem_cons.mpr ⟨d.named, fun g hg => ?_⟩
  obtain ⟨us, -, ⟨e⟩⟩ := d.exists_of_mem_marks hg
  exact e.named

theorem eq_of_same (hs : s.Named) (ht : t.Named) (h : s.same t = true) :
    t = { s with text := t.text } := by
  obtain ⟨hsroot, hsmarked⟩ := List.forall_mem_cons.mp hs
  obtain ⟨htroot, htmarked⟩ := List.forall_mem_cons.mp ht
  rw [same, Bool.and_eq_true, Bool.and_eq_true, beq_iff_eq] at h
  rw [Formula.eq_of_same hsroot htroot h.1.1, h.1.2,
    Formula.eq_of_sameList hsmarked htmarked h.2]

theorem columnOutcomes_of_same (hs : s.Named) (ht : t.Named) (h : s.same t = true)
    (rows : List (List Bool)) : s.columnOutcomes rows = t.columnOutcomes rows := by
  rw [eq_of_same hs ht h]
  rfl

end Statement

namespace Table

/-- Two statements have the same table, or fail alike: for a reason that has nothing to do with the
formulas, or at the same undefined variable, each with what its own failures say about it. -/
def Alike (s t : Statement) (choice : BackendChoice) : Prop :=
  (∃ u v, build s choice = .ok u ∧ build t choice = .ok v ∧ u.same v = true) ∨
  (∃ e, build s choice = .error e ∧ build t choice = .error e) ∨
  ∃ b x, choice.backend? = some b ∧
    build s choice = .error (.undefined ⟨.name x, sourceOf s b⟩) ∧
    build t choice = .error (.undefined ⟨.name x, sourceOf t b⟩)

/-- Over the same variables, and with the same names in use, to mean the same is enough. -/
theorem alike_of_meaning {s t : Statement} (hatoms : s.atoms = t.atoms) (hused : s.used = t.used)
    (hmeaning : ∀ v, s.meaning v = t.meaning v) (choice : BackendChoice) : Alike s t choice := by
  obtain ⟨name, _ | b⟩ := choice
  · refine .inr (.inl ?_)
    rw [build, build, enumerable, enumerable, ← hatoms]
    split
    · exact ⟨_, rfl, rfl⟩
    · exact ⟨_, rfl, rfl⟩
  · by_cases h : s.atoms.length ≤ maxVariables
    · rw [Alike, build_eq h, build_eq (hatoms ▸ h), ← hatoms, ← hused]
      cases hmissing : s.used.find? fun x => !s.atoms.contains x with
      | none =>
          have hdeclared : ∀ x ∈ s.used, x ∈ s.atoms := by simpa using hmissing
          have hsame := (same_byMeaning_iff hatoms hdeclared (hatoms ▸ hused ▸ hdeclared)).mpr
            hmeaning
          exact .inl ⟨_, _, rfl, rfl, hsame⟩
      | some x => exact .inr (.inr ⟨b, x, rfl, rfl, rfl⟩)
    · refine .inr (.inl ⟨.variableCount s.atoms.length, ?_, ?_⟩)
      · rw [build, enumerable, if_neg (by simpa using h)]
      · rw [build, enumerable, ← hatoms, if_neg (by simpa using h)]

end Table

/-! ## The cache

Where the columns of a statement were worked out the statement is kept, with the shape of the rows,
or whatever else the cache goes by. A call finds the statement that is the same and has its columns
worked out in the new rows; where there is none, its own are, and unless that fails the statement is
kept from then on. -/

/-- The statements that are kept, each with the shape of the rows it was kept for. -/
abbrev Cache (Shape : Type) := List (Statement × Shape)

namespace Cache

variable {Shape : Type} [DecidableEq Shape] (shape : List (List Bool) → Shape)

/-- The outcomes of a statement in some rows, and the cache behind the call. -/
def call (c : Cache Shape) (s : Statement) (rows : List (List Bool)) :
    Cache Shape × Except Undefined (List Outcome) :=
  match c.find? fun kept => kept.1.same s && kept.2 == shape rows with
  | some kept => (c, kept.1.columnOutcomes rows)
  | none =>
    match s.columnOutcomes rows with
    | .error u => (c, .error u)
    | .ok outcomes => ((s, shape rows) :: c, .ok outcomes)

/-- The outcomes of several calls, one after another. -/
def run (c : Cache Shape) :
    List (Statement × List (List Bool)) → List (Except Undefined (List Outcome))
  | [] => []
  | (s, rows) :: calls =>
    (c.call shape s rows).2 :: run (c.call shape s rows).1 calls

/-- All statements that are kept are of the named kind. -/
def Named (c : Cache Shape) : Prop :=
  ∀ kept ∈ c, kept.1.Named

variable {c : Cache Shape} {s : Statement}

theorem call_eq (hc : c.Named) (hs : s.Named) (rows : List (List Bool)) :
    (c.call shape s rows).2 = s.columnOutcomes rows ∧ (c.call shape s rows).1.Named := by
  rw [call]
  split
  next kept hkept =>
    have hsame := List.find?_some hkept
    rw [Bool.and_eq_true] at hsame
    exact ⟨Statement.columnOutcomes_of_same (hc kept (List.mem_of_find?_eq_some hkept)) hs
      hsame.1 rows, hc⟩
  next =>
    split
    next u hu => exact ⟨hu.symm, hc⟩
    next outcomes hok => exact ⟨hok.symm, List.forall_mem_cons.mpr ⟨hs, hc⟩⟩

theorem run_eq (hc : c.Named) {calls : List (Statement × List (List Bool))}
    (hcalls : ∀ call ∈ calls, call.1.Named) :
    c.run shape calls = calls.map fun call => call.1.columnOutcomes call.2 := by
  induction calls generalizing c with
  | nil => rfl
  | cons call calls ih =>
      obtain ⟨hcall, hcalls⟩ := List.forall_mem_cons.mp hcalls
      obtain ⟨houtcomes, hkept⟩ := call_eq shape hc hcall call.2
      rw [run, houtcomes, ih hkept hcalls]
      rfl

/-- A variable that goes by the lexeme of another gets the column of the other. -/
example :
    let s : Statement := ⟨['p'], .var ['p'] ['p'], [['p'], ['q']], []⟩
    let t : Statement := ⟨['p'], .var ['p'] ['q'], [['p'], ['q']], []⟩
    run List.length [] [(s, [[true, false]]), (t, [[true, false]])] =
        [.ok [⟨[], true⟩], .ok [⟨[], true⟩]] ∧
      t.columnOutcomes [[true, false]] = .ok [⟨[], false⟩] :=
  ⟨rfl, rfl⟩

end Cache

namespace Statement

/-- Where every variable goes by its lexeme, as in all that is read from a text, nothing tells same
formulas apart: they are printed and typeset alike or have no printed form, for want of a negation's
lexeme; they are equally deep; under every assignment they have the same value or fail with the same
variable. So the tables of same statements are the same, or their failures are, and a cache that
goes by sameness, besides any shape of the rows, never shows in the outcomes. -/
theorem same_indistinguishable :
    (∀ f g : Formula, f.Named → g.Named → f.same g = true →
      f.print? = g.print? ∧ (f.print? = none ↔ ∃ path h, f.at? path = some (.not [] h)) ∧
      f.latex = g.latex ∧ f.depth = g.depth ∧ ∀ a, f.eval a = g.eval a) ∧
    (∀ o text s, parse o text = .ok s → s.Named) ∧
    (∀ s t : Statement, s.Named → t.Named → s.same t = true →
      ∀ choice, Table.Alike s t choice) ∧
    ∀ (Shape : Type) [DecidableEq Shape] (shape : List (List Bool) → Shape)
      (calls : List (Statement × List (List Bool))), (∀ call ∈ calls, call.1.Named) →
      Cache.run shape [] calls = calls.map fun call => call.1.columnOutcomes call.2 := by
  refine ⟨fun f g hf hg h => ?_, fun o text s => named_of_parse, fun s t hs ht h => ?_,
    fun Shape _ shape calls => Cache.run_eq shape (List.forall_mem_nil _)⟩
  · obtain rfl := Formula.eq_of_same hf hg h
    exact ⟨rfl, Formula.print?_eq_none_iff, rfl, rfl, fun a => rfl⟩
  · have heq := eq_of_same hs ht h
    refine Table.alike_of_meaning ?_ ?_ fun v => ?_
    · rw [heq]
    · rw [heq]
      rfl
    · rw [heq]
      rfl

theorem same_indistinguishable_respaced :
    ∃ s t, parse {} "*(p=>~q)".toList = .ok s ∧ parse {} "*( p =>~ q )".toList = .ok t ∧
      s ≠ t ∧ s.same t = true ∧ (∀ choice, Table.Alike s t choice) ∧
      Cache.run List.length [] [(s, [[true, false]]), (t, [[true, true]])] =
        [.ok [⟨[true], true⟩], .ok [⟨[false], false⟩]] := by
  let f : Formula := .binary .implies ['=', '>'] (.var ['p'] ['p']) (.not ['~'] (.var ['q'] ['q']))
  let s : Statement := ⟨"*(p=>~q)".toList, f, [['p'], ['q']], [f]⟩
  let t : Statement := ⟨"*( p =>~ q )".toList, f, [['p'], ['q']], [f]⟩
  have hs : parse {} "*(p=>~q)".toList = .ok s := by decide +kernel
  have ht : parse {} "*( p =>~ q )".toList = .ok t := by decide +kernel
  obtain ⟨-, hnamed, halike, hcache⟩ := same_indistinguishable
  refine ⟨s, t, hs, ht, by decide, rfl, halike s t (hnamed _ _ s hs) (hnamed _ _ t ht) rfl, ?_⟩
  rw [hcache Nat List.length]
  · rfl
  · exact List.forall_mem_cons.mpr ⟨hnamed _ _ s hs,
      List.forall_mem_cons.mpr ⟨hnamed _ _ t ht, List.forall_mem_nil _⟩⟩

end Statement

end Sentential
