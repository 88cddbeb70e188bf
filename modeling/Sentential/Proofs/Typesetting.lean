import Mathlib.Data.List.Basic
import Sentential.Proofs.Respelling
import Sentential.Proofs.Variables

/-!
# Typeset formulas are read in one way

A typeset formula begins with a command, with a letter or with a parenthesis. A negation has no
parentheses around it, so where a formula ends is not marked in every case; but what it begins with
says how many formulas follow in it, and so no typeset formula is the beginning of another. This
makes the typeset form a code for formulas up to their spelling. It is essential that variables are
single letters: the code would fail with a variable called `\top`.

What is left out of the code is what evaluation does not see, so formulas that are typeset in the
same way are evaluated in the same way.
-/

namespace Sentential

/-- Where a character stands for the first time in a text, the text is cut in one way. -/
theorem Text.eq_of_append_cons {c : Char} {a b u v : Text} (ha : c ∉ a) (hb : c ∉ b)
    (h : a ++ c :: u = b ++ c :: v) : a = b ∧ u = v := by
  rcases List.append_eq_append_iff.mp h with ⟨_ | ⟨d, as⟩, rfl, hrest⟩ | ⟨_ | ⟨d, bs⟩, rfl, hrest⟩
  · exact ⟨(List.append_nil a).symm, List.tail_eq_of_cons_eq hrest⟩
  · exact absurd (List.mem_append_right a (List.head_eq_of_cons_eq hrest ▸ List.mem_cons_self)) hb
  · exact ⟨List.append_nil b, (List.tail_eq_of_cons_eq hrest).symm⟩
  · exact absurd (List.mem_append_right b (List.head_eq_of_cons_eq hrest ▸ List.mem_cons_self)) ha

/-- The characters that formulas are typeset in. -/
def Text.isTypeset (c : Char) : Bool :=
  isWordChar c || ['\\', '(', ')', ' '].contains c

theorem Text.notMem_of_all_isTypeset {t : Text} (h : t.all isTypeset = true) {c : Char}
    (hc : isTypeset c = false) : c ∉ t := by
  intro hmem
  rw [List.all_eq_true.mp h c hmem] at hc
  cases hc

namespace Formula

/-! ## Formulas over letters -/

/-- Every variable goes by its lexeme, which is a single word character. -/
def Lettered : Formula → Prop
  | literal _ => True
  | var lexeme name => lexeme = name ∧ ∃ c, name = [c] ∧ Text.isWordChar c = true
  | not _ f => f.Lettered
  | binary _ _ f g => f.Lettered ∧ g.Lettered

theorem Lettered.of_mem_children {f g : Formula} (h : f.Lettered) (hg : g ∈ f.children) :
    g.Lettered := by
  cases f with
  | literal | var => cases hg
  | not lexeme f => exact List.mem_singleton.mp hg ▸ h
  | binary op lexeme f k =>
      rcases List.mem_pair.mp hg with rfl | rfl
      · exact h.1
      · exact h.2

theorem Lettered.of_at? {f g : Formula} {path : List Nat} (h : f.Lettered)
    (hat : f.at? path = some g) : g.Lettered := by
  induction path generalizing f with
  | nil =>
      cases hat
      exact h
  | cons i path ih =>
      rw [at?] at hat
      split at hat
      · next k hk => exact ih (h.of_mem_children (List.mem_of_getElem? hk)) hat
      · cases hat

/-- The formula is a part of something that was read from a text. -/
def Occurs (f : Formula) : Prop :=
  ∃ o text s, Statement.parse o text = .ok s ∧
    ∃ g ∈ s.root :: s.subExpressions, ∃ path, g.at? path = some f

end Formula

theorem Derivation.lettered {phrase : Phrase} {ts : List Token} {f : Formula}
    (d : Derivation phrase ts f)
    (hts : ∀ x, ⟨.var, x⟩ ∈ ts → ∃ c, x = [c] ∧ Text.isWordChar c = true) : f.Lettered := by
  induction d with
  | operand d ih => exact ih hts
  | compound h d e ihd ihe =>
      exact ⟨ihd fun x hx => hts x (List.mem_append_left _ hx),
        ihe fun x hx => hts x (List.mem_append_right _ (List.mem_cons_of_mem _ hx))⟩
  | literal lexeme => trivial
  | var lexeme => exact ⟨rfl, hts lexeme (List.mem_singleton_self _)⟩
  | negation d ih => exact ih fun x hx => hts x (List.mem_cons_of_mem _ hx)
  | group d ih => exact ih fun x hx => hts x (List.mem_cons_of_mem _ (List.mem_append_left _ hx))

theorem Statement.lettered_of_parse {o : ParseOptions} {text : Text} {s : Statement}
    (h : parse o text = .ok s) {f : Formula} (hf : f ∈ s.root :: s.subExpressions) :
    f.Lettered := by
  obtain ⟨ts, hlex, g, d, -, rfl⟩ := parse_eq_ok_iff.mp h
  have hletter : ∀ x, ⟨.var, x⟩ ∈ ts → ∃ c, x = [c] ∧ Text.isWordChar c = true := by
    intro x hx
    obtain ⟨c, hc, hword, -⟩ := Token.exists_char_of_var (Token.firstKind_of_lex hlex _ hx)
    exact ⟨c, hc, hword⟩
  rcases List.mem_cons.mp hf with rfl | hf
  · exact d.lettered hletter
  · obtain ⟨us, hus, ⟨e⟩⟩ := d.exists_of_mem_marks hf
    exact e.lettered fun x hx => hletter x (hus hx)

namespace Formula

theorem Occurs.lettered {f : Formula} (h : f.Occurs) : f.Lettered := by
  obtain ⟨o, text, s, hparse, g, hg, path, hat⟩ := h
  exact (Statement.lettered_of_parse hparse hg).of_at? hat

/-! ## The code -/

theorem latex_literal (lexeme : Text) :
    (literal lexeme).latex = if literalValue lexeme then "\\top".toList else "\\bot".toList :=
  rfl

theorem latex_not (lexeme : Text) (f : Formula) :
    (not lexeme f).latex = "\\lnot ".toList ++ f.latex :=
  rfl

theorem latex_binary (op : Connective) (lexeme : Text) (f g : Formula) :
    (binary op lexeme f g).latex =
      '(' :: f.latex ++ ' ' :: op.latex ++ ' ' :: g.latex ++ [')'] :=
  rfl

theorem latex_binary_append (op : Connective) (lexeme : Text) (f g : Formula) (u : Text) :
    (binary op lexeme f g).latex ++ u =
      '(' :: (f.latex ++ ' ' :: (op.latex ++ ' ' :: (g.latex ++ ')' :: u))) := by
  rw [latex_binary]
  simp

theorem Alike.latex_eq {f g : Formula} (h : f.Alike g) : f.latex = g.latex := by
  induction h with
  | literal h => rw [latex_literal, latex_literal, h]
  | var lexeme name => rfl
  | not h ih => rw [latex_not, latex_not, ih]
  | binary hleft hright ihl ihr => rw [latex_binary, latex_binary, ihl, ihr]

theorem map_latex_eq {fs gs : List Formula} (h : List.Forall₂ Alike fs gs) :
    fs.map latex = gs.map latex := by
  induction h with
  | nil => rfl
  | cons hf h ih => rw [List.map_cons, List.map_cons, hf.latex_eq, ih]

/-- A command ends at the first blank. -/
theorem eq_of_latex_append_blank {op op' : Connective} {u v : Text}
    (h : op.latex ++ ' ' :: u = op'.latex ++ ' ' :: v) : op = op' ∧ u = v := by
  have hblank : ∀ op : Connective, ' ' ∉ op.latex := by
    intro op
    cases op <;> decide
  obtain ⟨hop, hrest⟩ := Text.eq_of_append_cons (hblank op) (hblank op') h
  refine ⟨?_, hrest⟩
  cases op <;> cases op' <;> first | rfl | exact absurd hop (by decide)

/-- What a typeset formula begins with. -/
inductive Opening where
  | literal (value : Bool)
  | letter
  | negation
  | compound

/-- The first two characters of a typeset formula tell what it is. -/
def Opening.ofText : Text → Opening
  | '(' :: _ => compound
  | '\\' :: 'l' :: _ => negation
  | '\\' :: c :: _ => literal (c == 't')
  | _ => letter

/-- What the formula begins with when it is typeset. -/
def opening : Formula → Opening
  | literal lexeme => .literal (literalValue lexeme)
  | var _ _ => .letter
  | not _ _ => .negation
  | binary _ _ _ _ => .compound

theorem Opening.ofText_letter {c : Char} (h : Text.isWordChar c = true) (u : Text) :
    ofText (c :: u) = letter := by
  have hopen : c ≠ '(' := by
    rintro rfl
    exact absurd h (by decide)
  have hcommand : c ≠ '\\' := by
    rintro rfl
    exact absurd h (by decide)
  unfold ofText
  split <;> simp_all

theorem ofText_latex_append {f : Formula} (hf : f.Lettered) (u : Text) :
    Opening.ofText (f.latex ++ u) = f.opening := by
  cases f with
  | literal lexeme =>
      rw [latex_literal, opening]
      cases literalValue lexeme <;> rfl
  | var lexeme name =>
      obtain ⟨rfl, c, rfl, hc⟩ := hf
      exact Opening.ofText_letter hc u
  | not lexeme f => rfl
  | binary op lexeme f g => rfl

theorem opening_eq_of_latex_append {f g : Formula} {u v : Text} (hf : f.Lettered)
    (hg : g.Lettered) (h : f.latex ++ u = g.latex ++ v) : f.opening = g.opening := by
  rw [← ofText_latex_append hf u, h, ofText_latex_append hg]

/-- No typeset formula is the beginning of another, and the same is typeset for formulas of the same
shape only. -/
theorem alike_of_latex_append {f g : Formula} {u v : Text} (hf : f.Lettered) (hg : g.Lettered)
    (h : f.latex ++ u = g.latex ++ v) : f.Alike g ∧ u = v := by
  induction f generalizing g u v with
  | literal a =>
      have hopening := opening_eq_of_latex_append hf hg h
      cases g with
      | literal b =>
          have hvalue : literalValue a = literalValue b := by injection hopening
          have halike : Alike (literal a) (literal b) := .literal hvalue
          rw [halike.latex_eq] at h
          exact ⟨halike, List.append_cancel_left h⟩
      | var | not | binary => cases hopening
  | var a x =>
      have hopening := opening_eq_of_latex_append hf hg h
      cases g with
      | var b y =>
          obtain ⟨rfl, c, rfl, -⟩ := hf
          obtain ⟨rfl, d, rfl, -⟩ := hg
          obtain ⟨rfl, hrest⟩ := List.cons_eq_cons.mp h
          exact ⟨.var [c] [c], hrest⟩
      | literal | not | binary => cases hopening
  | not a f ih =>
      have hopening := opening_eq_of_latex_append hf hg h
      cases g with
      | not b g =>
          -- a negation has no end of its own: it ends where its operand does
          rw [latex_not, latex_not, List.append_assoc, List.append_assoc] at h
          have hg' : g.Lettered := hg
          obtain ⟨halike, hbehind⟩ := ih hf hg' (List.append_cancel_left h)
          exact ⟨.not halike, hbehind⟩
      | literal | var | binary => cases hopening
  | binary op a f₁ f₂ ih₁ ih₂ =>
      have hopening := opening_eq_of_latex_append hf hg h
      cases g with
      | binary op' b g₁ g₂ =>
          rw [latex_binary_append, latex_binary_append] at h
          -- the operands end by themselves, and the command ends at a blank
          obtain ⟨hleft, hop⟩ := ih₁ hf.1 hg.1 (List.tail_eq_of_cons_eq h)
          obtain ⟨rfl, hrest⟩ := eq_of_latex_append_blank (List.tail_eq_of_cons_eq hop)
          obtain ⟨hright, hbehind⟩ := ih₂ hf.2 hg.2 hrest
          exact ⟨.binary hleft hright, List.tail_eq_of_cons_eq hbehind⟩
      | literal | var | not => cases hopening

theorem latex_eq_iff_of_lettered {f g : Formula} (hf : f.Lettered) (hg : g.Lettered) :
    f.latex = g.latex ↔ f.Alike g := by
  refine ⟨fun h => ?_, Alike.latex_eq⟩
  exact (alike_of_latex_append hf hg (congrArg (· ++ []) h)).1

/-- The formula is typeset in letters, backslashes, parentheses and spaces alone. -/
theorem all_isTypeset_latex {f : Formula} (hf : f.Lettered) :
    f.latex.all Text.isTypeset = true := by
  induction f with
  | literal lexeme =>
      rw [latex_literal]
      split <;> decide
  | var lexeme name =>
      obtain ⟨rfl, c, rfl, hc⟩ := hf
      show (Text.isTypeset c && true) = true
      rw [Text.isTypeset, hc]
      rfl
  | not lexeme f ih =>
      rw [latex_not, List.all_append, ih hf]
      decide
  | binary op lexeme f g ihf ihg =>
      have hop : op.latex.all Text.isTypeset = true := by cases op <;> decide
      rw [latex_binary]
      simp [ihf hf.1, ihg hf.2, hop, Text.isTypeset]

/-- No sign of a negation or a connective is found in what is typeset. -/
theorem not_infix_of_isTypeset {kind : Kind}
    (hkind : kind = .negation ∨ ∃ op, kind = .connective op) {v : Text}
    (hv : v ∈ kind.spellings none []) (hsign : ∃ c ∈ v, c ≠ '\\' ∧ Text.isWordChar c = false)
    {t : Text} (ht : t.all Text.isTypeset = true) : ¬ v <:+: t := by
  intro hfound
  obtain ⟨c, hc, hcommand, hword⟩ := hsign
  have hall : ((kind.spellings none []).all fun v => v.all fun c =>
      ! List.contains ['(', ')', ' '] c) = true := by
    rcases hkind with rfl | ⟨op, rfl⟩
    · decide
    · cases op <;> decide
  have hrest := List.all_eq_true.mp (List.all_eq_true.mp hall v hv) c hc
  have htypeset := List.all_eq_true.mp ht c (hfound.subset hc)
  rw [Text.isTypeset, hword, Bool.false_or, List.contains_iff_mem] at htypeset
  have hmark : c ∈ ['(', ')', ' '] := (List.mem_cons.mp htypeset).resolve_left hcommand
  rw [List.contains_iff_mem.mpr hmark] at hrest
  cases hrest

/-- Formulas that were read are typeset in the same way if and only if they have the same shape: the
same kinds of parts in the same places, with the same variables and literals of the same values. So
what looks the same is evaluated in the same way. -/
theorem latex_eq_iff {f g : Formula} (hf : f.Occurs) (hg : g.Occurs) :
    (f.latex = g.latex ↔ f.Alike g) ∧ (f.latex = g.latex → ∀ a, f.eval a = g.eval a) := by
  have hiff := latex_eq_iff_of_lettered hf.lettered hg.lettered
  exact ⟨hiff, fun h => (hiff.mp h).eval_eq⟩

theorem latex_eq_iff_spelled_anew :
    ∃ f g : Formula, f.Occurs ∧ g.Occurs ∧ f.latex = "\\lnot (\\lnot p \\implies \\top)".toList ∧
      f ≠ g ∧ f.Alike g ∧ ∀ a, f.eval a = g.eval a := by
  let p : Formula := .var ['p'] ['p']
  let q : Formula := .var ['q'] ['q']
  let f : Formula := .not ['!'] (.binary .implies ['=', '>'] (.not ['~'] p) (.literal ['T']))
  let g : Formula := .not "not".toList (.binary .implies ['⇒'] (.not ['¬'] p) (.literal ['1']))
  let text := "q and !(~p=>T)".toList
  let text' := "q|*(not(¬p⇒1))".toList
  let s : Statement := ⟨text, .binary .and "and".toList q f, [['p'], ['q']], []⟩
  let s' : Statement := ⟨text', .binary .nand ['|'] q g, [['p'], ['q']], [g]⟩
  have hs : Statement.parse {} text = .ok s := by decide +kernel
  have hs' : Statement.parse {} text' = .ok s' := by decide +kernel
  have hf : f.Occurs := ⟨{}, text, s, hs, s.root, List.mem_cons_self, [1], rfl⟩
  have hg : g.Occurs :=
    ⟨{}, text', s', hs', g, List.mem_cons_of_mem _ List.mem_cons_self, [], rfl⟩
  have heq : f.latex = g.latex := by decide
  obtain ⟨hiff, heval⟩ := latex_eq_iff hf hg
  exact ⟨f, g, hf, hg, by decide, by decide, hiff.mp heq, heval heq⟩

end Formula

end Sentential
