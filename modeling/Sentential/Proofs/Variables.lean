import Sentential.Proofs.Backends
import Sentential.Proofs.Munch
import Sentential.Proofs.Order
import Sentential.Proofs.Precedence

/-!
# The variables of a statement

A reading meets a variable where it reads its token, and it builds its formula elsewhere. That the
two agree is a matter of the derivation: whatever a phrase derives, the names of its formula are the
lexemes of its variable tokens, and a marked group takes its tokens from the phrase that it is a
part of. So the variables of a statement that was read are just those of its root, and no
sub-expression has others.

More variables can be declared, and nothing else can be done to a statement that was read. All
statements that come about in this way declare what they use, in ascending order, so evaluation
under an assignment of all of their variables cannot fail, and neither can their tables.
-/

namespace Sentential

/-! ## Names and tokens

The parser learns the variables among the tokens it passes. The derivation says that these are the
names of the formula, and that the names of a marked group are among them. -/

namespace ParseState

theorem mem_learn {names : List Text} {t : Token} {x : Text} :
    x ∈ learn names t ↔ x ∈ names ∨ t = ⟨.var, x⟩ := by
  obtain ⟨k, lexeme⟩ := t
  unfold learn
  by_cases hk : k = .var
  · subst hk
    by_cases hmem : lexeme ∈ names
    · simp only [List.contains_iff_mem.mpr hmem, Bool.not_true, Bool.and_false, Bool.false_eq_true,
        if_false]
      exact ⟨.inl, fun h => h.elim id fun heq => by cases heq; exact hmem⟩
    · simp [hmem, eq_comm]
  · simp [hk]

theorem mem_foldl_learn {names : List Text} {ts : List Token} {x : Text} :
    x ∈ ts.foldl learn names ↔ x ∈ names ∨ ⟨.var, x⟩ ∈ ts := by
  induction ts generalizing names with
  | nil => simp
  | cons t ts ih =>
      rw [List.foldl_cons, ih, mem_learn, List.mem_cons, or_assoc]
      exact or_congr_right (or_congr_left eq_comm)

end ParseState

namespace Derivation

variable {phrase : Phrase} {ts : List Token} {f : Formula}

theorem mem_names (d : Derivation phrase ts f) {x : Text} :
    x ∈ f.names ↔ ⟨.var, x⟩ ∈ ts := by
  induction d with
  | operand d ih => exact ih
  | compound h d e ihd ihe => simp [Formula.names, ihd, ihe]
  | literal lexeme => simp [Formula.names]
  | var lexeme => simp [Formula.names]
  | negation d ih => simp [Formula.names, ih]
  | group d ih => simp [ih]

/-- The formula of a marked group is derived from some of the tokens. -/
theorem exists_of_mem_marks {marker : Option Char} (d : Derivation phrase ts f) {g : Formula}
    (hg : g ∈ d.marks marker) :
    ∃ us, us ⊆ ts ∧ Nonempty (Derivation (.expression .loose) us g) := by
  induction d with
  | operand d ih => exact ih hg
  | compound h d e ihd ihe =>
      rcases List.mem_append.mp hg with hg | hg
      · obtain ⟨us, hus, e'⟩ := ihd hg
        exact ⟨us, List.subset_append_of_subset_left _ hus, e'⟩
      · obtain ⟨us, hus, e'⟩ := ihe hg
        exact ⟨us, List.subset_append_of_subset_right _ (List.subset_cons_of_subset _ hus), e'⟩
  | literal lexeme | var lexeme => cases hg
  | negation d ih =>
      obtain ⟨us, hus, e⟩ := ih hg
      exact ⟨us, List.subset_cons_of_subset _ hus, e⟩
  | @group left right ts f d ih =>
      have inside : ts ⊆ ⟨.openParen, left⟩ :: (ts ++ [⟨.closeParen, right⟩]) :=
        List.subset_cons_of_subset _ (List.subset_append_left ..)
      rcases List.mem_append.mp hg with hg | hg
      · obtain ⟨us, hus, e⟩ := ih hg
        exact ⟨us, List.Subset.trans hus inside, e⟩
      · unfold recorded at hg
        split at hg
        · rw [List.mem_singleton.mp hg]
          exact ⟨ts, inside, ⟨d⟩⟩
        · cases hg

theorem mem_of_mem_marks {marker : Option Char} (d : Derivation phrase ts f) {g : Formula}
    (hg : g ∈ d.marks marker) {x : Text} (hx : x ∈ g.names) : ⟨.var, x⟩ ∈ ts := by
  obtain ⟨us, hus, ⟨e⟩⟩ := d.exists_of_mem_marks hg
  exact hus (e.mem_names.mp hx)

end Derivation

/-! ## The lexemes of variables -/

namespace Token

variable {marker : Option Char}

theorem firstKind_of_munches {w r : Text} {ts : List Token} (h : Munches marker w ts r) :
    ∀ t ∈ ts, FirstKind marker t.lexeme t.kind := by
  induction h with
  | stop r => exact List.forall_mem_nil _
  | step hlongest hkind h ih => exact List.forall_mem_cons.mpr ⟨hkind, ih⟩

theorem firstKind_of_words {ws : List Text} {tss : List (List Token)}
    (h : List.Forall₂ (Munches marker · · []) ws tss) :
    ∀ t ∈ tss.flatten, FirstKind marker t.lexeme t.kind := by
  induction h with
  | nil => exact List.forall_mem_nil _
  | cons hw hws ih =>
      intro t ht
      rcases List.mem_append.mp ht with ht | ht
      · exact firstKind_of_munches hw t ht
      · exact ih t ht

/-- Every token has the first kind that its lexeme is a spelling of. -/
theorem firstKind_of_lex {text : Text} {ts : List Token} (h : lex marker text = .ok ts) :
    ∀ t ∈ ts, FirstKind marker t.lexeme t.kind := by
  obtain ⟨tss, hwords, rfl⟩ :=
    (lexWords_eq_ok_iff fun w hw => opensLast_of_mem_wordsOf hw).mp h
  exact firstKind_of_words hwords

theorem wholeKind?_literal {c : Char} (hc : c ∈ "tTfF01yYnN".toList) :
    wholeKind? none [c] = some .literal := by
  have hall : ("tTfF01yYnN".toList.all fun c => wholeKind? none [c] == some .literal) = true := by
    decide
  exact beq_iff_eq.mp (List.all_eq_true.mp hall c hc)

/-- A variable is one word character, and none that is a literal by itself. -/
theorem exists_char_of_var {v : Text} (h : FirstKind marker v .var) :
    ∃ c, v = [c] ∧ Text.isWordChar c = true ∧ c ∉ "tTfF01yYnN".toList := by
  obtain ⟨c, hc, rfl⟩ := mem_spellings_var.mp h.1
  refine ⟨c, rfl, hc, fun hletter => ?_⟩
  have hkind := wholeKind?_eq_some_iff.mpr h
  rw [wholeKind?_single, wholeKind?_literal hletter] at hkind
  cases hkind

end Token

/-! ## Statements that were read -/

namespace Statement

variable {o : ParseOptions} {text : Text} {s : Statement}

theorem mem_atoms_of_parse (h : parse o text = .ok s) {x : Text} :
    x ∈ s.atoms ↔ x ∈ s.root.names := by
  obtain ⟨ts, -, f, d, -, rfl⟩ := parse_eq_ok_iff.mp h
  rw [Text.mem_sortedSet, ParseState.mem_foldl_learn, d.mem_names]
  simp

theorem mem_atoms_of_subExpression (h : parse o text = .ok s) {f : Formula}
    (hf : f ∈ s.subExpressions) {x : Text} (hx : x ∈ f.names) : x ∈ s.atoms := by
  obtain ⟨ts, -, g, d, -, rfl⟩ := parse_eq_ok_iff.mp h
  exact Text.mem_sortedSet.mpr (ParseState.mem_foldl_learn.mpr (.inr (d.mem_of_mem_marks hf hx)))

theorem exists_char_of_mem_atoms (h : parse o text = .ok s) {x : Text} (hx : x ∈ s.atoms) :
    ∃ c, x = [c] ∧ Text.isWordChar c = true ∧ c ∉ "tTfF01yYnN".toList := by
  obtain ⟨ts, hlex, f, d, -, rfl⟩ := parse_eq_ok_iff.mp h
  rw [Text.mem_sortedSet, ParseState.mem_foldl_learn] at hx
  exact Token.exists_char_of_var (Token.firstKind_of_lex hlex _ (hx.resolve_left List.not_mem_nil))

/-- The statements that come from a text, also with more variables than the text has. -/
inductive Compiled : Statement → Prop where
  | parse {o : ParseOptions} {text : Text} {s : Statement} (h : parse o text = .ok s) : Compiled s
  | withVariables {s : Statement} (h : Compiled s) (names : List Text) :
      Compiled (s.withVariables names)

theorem mem_atoms_withVariables {names : List Text} {x : Text} :
    x ∈ (s.withVariables names).atoms ↔ x ∈ s.atoms ∨ x ∈ names := by
  rw [withVariables, Text.mem_sortedSet, List.mem_append]

theorem mem_atoms_of_used (h : s.Compiled) {x : Text} (hx : x ∈ s.used) : x ∈ s.atoms := by
  induction h with
  | parse h =>
      obtain ⟨f, hf, hx⟩ := mem_used.mp hx
      rcases List.mem_cons.mp hf with rfl | hf
      · exact (mem_atoms_of_parse h).mpr hx
      · exact mem_atoms_of_subExpression h hf hx
  | withVariables h names ih => exact mem_atoms_withVariables.mpr (.inl (ih hx))

theorem ascending_atoms (h : s.Compiled) : s.atoms.Pairwise Text.Before := by
  cases h with
  | parse h =>
      obtain ⟨ts, -, f, d, -, rfl⟩ := parse_eq_ok_iff.mp h
      exact Text.pairwise_sortedSet _
  | withVariables h names => exact Text.pairwise_sortedSet _

/-- A statement that was read has its variables in ascending order. They are the names in its root,
each of them one word character and no literal, and its sub-expressions have no others. So under an
assignment of all variables everything in it has a value, and its table can be built unless the
variables are too many; never is a variable missing. -/
theorem parse_declares (h : parse o text = .ok s) :
    s.atoms.Pairwise Text.Before ∧
    (∀ x, x ∈ s.atoms ↔ x ∈ s.root.names) ∧
    (∀ x ∈ s.atoms, ∃ c, x = [c] ∧ Text.isWordChar c = true ∧ c ∉ "tTfF01yYnN".toList) ∧
    (∀ f ∈ s.subExpressions, ∀ x ∈ f.names, x ∈ s.atoms) ∧
    (∀ a : Assignment, (∀ x ∈ s.atoms, ∃ b, a.get (.name x) = .ok b) →
      ∀ f ∈ s.root :: s.subExpressions, ∃ b, f.eval a = .ok b) ∧
    (s.atoms.length ≤ Table.maxVariables →
      ∀ name b, ∃ t, Table.build s ⟨name, some b⟩ = .ok t) ∧
    ∀ choice u, Table.build s choice ≠ .error (.undefined u) := by
  have hused : ∀ x ∈ s.used, x ∈ s.atoms := fun x => mem_atoms_of_used (.parse h)
  refine ⟨ascending_atoms (.parse h), fun x => mem_atoms_of_parse h,
    fun x => exists_char_of_mem_atoms h, fun f hf x => mem_atoms_of_subExpression h hf, ?_,
    fun hcount name b => ⟨_, Table.build_of_declared hcount hused name b⟩,
    Table.build_ne_undefined hused⟩
  intro a ha f hf
  exact ⟨_, eval_of_knows_used (fun x hx => Assignment.knows_iff.mpr (ha x (hused x hx))) f hf⟩

theorem parse_declares_marked_group :
    ∃ s, parse {} "*(z<->b)|~a".toList = .ok s ∧ s.atoms = [['a'], ['b'], ['z']] ∧
      (∀ f ∈ s.root :: s.subExpressions, ∃ b, f.eval s.allTrue = .ok b) ∧
      ∀ name b, ∃ t, Table.build s ⟨name, some b⟩ = .ok t := by
  let group : Formula := .binary .iff ['<', '-', '>'] (.var ['z'] ['z']) (.var ['b'] ['b'])
  let s : Statement := ⟨"*(z<->b)|~a".toList,
    .binary .nand ['|'] group (.not ['~'] (.var ['a'] ['a'])), [['a'], ['b'], ['z']], [group]⟩
  have hparse : parse {} "*(z<->b)|~a".toList = .ok s := by decide +kernel
  obtain ⟨-, -, -, -, heval, hbuild, -⟩ := parse_declares hparse
  have htotal : ∀ x ∈ s.atoms, ∃ b, s.allTrue.get (.name x) = .ok b := by
    intro x hx
    have hvalue : s.allTrue.value? x = some true :=
      (Assignment.value?_slotsFor s.atoms (fun _ => some true) (some s.text) x).trans (if_pos hx)
    exact Assignment.knows_iff.mp (Assignment.knows_of_value? hvalue)
  exact ⟨s, hparse, rfl, heval s.allTrue htotal, hbuild (by decide)⟩

end Statement

end Sentential
