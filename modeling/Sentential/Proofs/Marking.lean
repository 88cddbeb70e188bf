import Mathlib.Control.Monad.Basic
import Sentential.Proofs.OnePass
import Sentential.Proofs.Parentheses
import Sentential.Proofs.Printing

/-!
# What a marker changes

A marker is meant to record groups and to change nothing else. For the lexer it is one more lexeme,
the marker with an opening parenthesis behind it, and since a parenthesis ends its word, that lexeme
can only be the last of a word. So a word has the same tokens with and without the marker, unless
without it the last two are the marker alone and the parenthesis: then the marker takes the place of
the first of these, and the tokens are one fewer.

In a text that is accepted without a marker this cannot happen to a variable or a literal, because
none stands directly before a group. It does happen where the marker is one of the signs with which
an operator is spelled. Then the formula loses a part, since parentheses are no parts of it and all
other tokens are: the text is refused, or it has come to mean something else.
-/

namespace Sentential

theorem ParseOptions.isMarker_none : (none : Option Char).all isMarker = true := rfl

/-- The same options without a marker. -/
def ParseOptions.unmarked (o : ParseOptions) : ParseOptions :=
  { o with marker := none, isMarker_marker := isMarker_none }

/-! ## One more lexeme -/

namespace Token

/-- The word, read without a marker, ends with an opening parenthesis and directly before it with a
token that is the character alone. -/
def Glued (c : Char) (w : Text) : Prop :=
  ∃ ts k, lexWord none w = .ok (ts ++ [⟨k, [c]⟩, ⟨.openParen, ['(']⟩])

/-- What the tokens of a word become when the character is a marker: the same, unless a token that
is the character alone stands before the parenthesis. -/
inductive Absorbs (c : Char) : List Token → List Token → Prop where
  | kept {ts : List Token} (h : ∀ us k, ts ≠ us ++ [⟨k, [c]⟩, ⟨.openParen, ['(']⟩]) :
      Absorbs c ts ts
  | absorbed (ts : List Token) (k : Kind) :
      Absorbs c (ts ++ [⟨k, [c]⟩, ⟨.openParen, ['(']⟩]) (ts ++ [⟨.openParen, [c, '(']⟩])

variable {c : Char} {v s w : Text} {k : Kind} {ts : List Token}

theorem isLexeme_none_iff :
    IsLexeme none v ↔ IsLexeme (some c) v ∧ v ≠ [c, '('] := by
  constructor
  · intro h
    rcases isLexeme_iff.mp h with hv | ⟨m, hm, -⟩ | ⟨a, ha, rfl⟩
    · exact ⟨isLexeme_iff.mpr (.inl hv), ne_marked_of_mem_signs hv c⟩
    · cases hm
    · exact ⟨isLexeme_iff.mpr (.inr (.inr ⟨a, ha, rfl⟩)), by simp⟩
  · rintro ⟨h, hne⟩
    rcases isLexeme_iff.mp h with hv | ⟨m, hm, rfl⟩ | hv
    · exact isLexeme_iff.mpr (.inl hv)
    · cases hm
      exact absurd rfl hne
    · exact isLexeme_iff.mpr (.inr (.inr hv))

theorem longest_some (hlast : (v ++ s).OpensLast) (h : Longest none v s)
    (hne : v ++ s ≠ [c, '(']) : Longest (some c) v s := by
  refine ⟨⟨(isLexeme_none_iff.mp h.1.1).1, h.1.2⟩, fun u r heq hu => ?_⟩
  refine h.2 u r heq ⟨isLexeme_none_iff.mpr ⟨hu.1, ?_⟩, hu.2⟩
  rintro rfl
  obtain rfl : r = [] := hlast [c] r heq
  exact hne heq

theorem firstKind_some (h : FirstKind none v k) (hne : v ≠ [c, '(']) : FirstKind (some c) v k := by
  rw [← wholeKind?_eq_some_iff] at h ⊢
  rw [wholeKind?_none fun m hm => Option.some.inj hm ▸ hne, h]

theorem firstKind_marked (c : Char) : FirstKind (some c) [c, '('] .openParen := by
  obtain ⟨k, hk⟩ := exists_firstKind (isLexeme_iff.mpr (.inr (.inl ⟨c, rfl, rfl⟩)))
  by_cases hopen : k = .openParen
  · exact hopen ▸ hk
  · by_cases hvar : k = .var
    · rw [hvar] at hk
      obtain ⟨a, -, ha⟩ := mem_spellings_var.mp hk.1
      cases ha
    · exact absurd rfl (ne_marked_of_mem_signs (mem_signs_of_mem_spellings hopen hvar hk.1) c)

/-- The end of a word that is the marker with its parenthesis. -/
theorem absorbs_marked (hlongest : Longest none v s) (heq : v ++ s = [c, '('])
    (hs : Munches none s ts []) (hlast : (v ++ s).OpensLast) (k : Kind) :
    ∃ us, Absorbs c (⟨k, v⟩ :: ts) us ∧ Munches (some c) (v ++ s) us [] := by
  have hparen : FirstKind none ['('] .openParen := wholeKind?_eq_some_iff.mp rfl
  obtain ⟨rfl, rfl⟩ : v = [c] ∧ s = ['('] := by
    have hne := (@isLexeme_none_iff c v).mp hlongest.1.1
    rcases List.append_eq_cons_iff.mp heq with ⟨rfl, -⟩ | ⟨u, rfl, hu⟩
    · exact absurd rfl (ne_nil_of_isLexeme hne.1)
    · rcases List.append_eq_cons_iff.mp hu.symm with ⟨rfl, hs⟩ | ⟨u', rfl, hu'⟩
      · exact ⟨rfl, hs⟩
      · rw [(List.append_eq_nil_iff.mp hu'.symm).1] at hne
        exact absurd rfl hne.2
  have hts := (lexWord_eq_ok_iff hlast.suffix).mpr hs
  rw [lexWord_of_wholeKind (by simp) (wholeKind?_eq_some_iff.mpr hparen)] at hts
  cases hts
  refine ⟨_, .absorbed [] k, (lexWord_eq_ok_iff hlast).mp ?_⟩
  exact lexWord_of_wholeKind (by simp) (wholeKind?_eq_some_iff.mpr (firstKind_marked c))

theorem munches_absorbs (h : Munches none w ts []) (hlast : w.OpensLast) :
    ∃ us, Absorbs c ts us ∧ Munches (some c) w us [] := by
  generalize hr : [] = r at h
  induction h with
  | stop r =>
      subst hr
      exact ⟨[], .kept (by simp), .stop []⟩
  | @step v s r k ts hlongest hkind h ih =>
      subst hr
      by_cases heq : v ++ s = [c, '(']
      · exact absorbs_marked hlongest heq h hlast k
      · have hv : v ≠ [c, '('] := (isLexeme_none_iff.mp hlongest.1.1).2
        have step : ∀ us, Munches (some c) s us [] →
            Munches (some c) (v ++ s) (⟨k, v⟩ :: us) [] := fun us hus =>
          .step (longest_some hlast hlongest heq) (firstKind_some hkind hv) hus
        obtain ⟨us, habsorbs, hus⟩ := ih hlast.suffix rfl
        cases habsorbs with
        | absorbed ts k' => exact ⟨_, .absorbed (⟨k, v⟩ :: ts) k', step _ hus⟩
        | kept hts =>
            refine ⟨_, .kept fun us k' hcons => ?_, step _ hus⟩
            cases us with
            | cons t us => exact hts us k' (List.cons.inj hcons).2
            | nil =>
                -- then the rest of the word would be the parenthesis
                cases hcons
                cases h with
                | step _ _ hnil => cases hnil; exact heq rfl

/-- With a marker each word has its tokens, too. -/
theorem exists_lexWord_some (c : Char) (hlast : w.OpensLast) (h : lexWord none w = .ok ts) :
    ∃ us, Absorbs c ts us ∧ lexWord (some c) w = .ok us := by
  obtain ⟨us, habsorbs, hus⟩ := @munches_absorbs c w ts ((lexWord_eq_ok_iff hlast).mp h) hlast
  exact ⟨us, habsorbs, (lexWord_eq_ok_iff hlast).mpr hus⟩

theorem lexWord_some_of_not_glued (hlast : w.OpensLast) (h : lexWord none w = .ok ts)
    (hglued : ¬ Glued c w) : lexWord (some c) w = .ok ts := by
  obtain ⟨us, habsorbs, hus⟩ := exists_lexWord_some c hlast h
  cases habsorbs with
  | kept _ => exact hus
  | absorbed ts k => exact absurd ⟨ts, k, h⟩ hglued

theorem lexWords_some_of_not_glued {ws : List Text} (hlast : ∀ w ∈ ws, w.OpensLast)
    (h : lexWords none ws = .ok ts) (hglued : ∀ w ∈ ws, ¬ Glued c w) :
    lexWords (some c) ws = .ok ts := by
  induction ws generalizing ts with
  | nil => exact h
  | cons w ws ih =>
      obtain ⟨us, vs, hus, hvs, rfl⟩ := lexWords_cons_eq_ok_iff.mp h
      obtain ⟨hw, hws⟩ := List.forall_mem_cons.mp hlast
      obtain ⟨hgw, hgws⟩ := List.forall_mem_cons.mp hglued
      exact lexWords_cons_eq_ok_iff.mpr
        ⟨us, vs, lexWord_some_of_not_glued hw hus hgw, ih hws hvs hgws, rfl⟩

/-- What stands alone before the parenthesis is a token of its first kind, and no parenthesis if it
can be a marker. -/
theorem exists_of_glued (hmarker : isMarker c = true) (hlast : w.OpensLast) (hglued : Glued c w) :
    ∃ ts k, lexWord none w = .ok (ts ++ [⟨k, [c]⟩, ⟨.openParen, ['(']⟩]) ∧
      FirstKind none [c] k ∧ k ≠ .openParen ∧ k ≠ .closeParen := by
  obtain ⟨ts, k, h⟩ := hglued
  have hkind : FirstKind none [c] k :=
    firstKind_of_munches ((lexWord_eq_ok_iff hlast).mp h) ⟨k, [c]⟩ (by simp)
  refine ⟨ts, k, h, hkind, ?_, ?_⟩
  · rintro rfl
    have hc : c = '(' := by simpa [Kind.spellings] using hkind.1
    exact absurd (hc ▸ hmarker) (by decide)
  · rintro rfl
    have hc : c = ')' := by simpa [Kind.spellings] using hkind.1
    exact absurd (hc ▸ hmarker) (by decide)

/-- Whether the last two of the tokens are the character alone and a parenthesis. -/
def endsGlued (c : Char) (ts : List Token) : Bool :=
  match ts.reverse with
  | u :: t :: _ => u = ⟨.openParen, ['(']⟩ && t.lexeme = [c]
  | _ => false

theorem endsGlued_iff :
    endsGlued c ts = true ↔ ∃ us k, ts = us ++ [⟨k, [c]⟩, ⟨.openParen, ['(']⟩] := by
  constructor
  · intro h
    unfold endsGlued at h
    split at h
    · next u t us hrev =>
        simp only [Bool.and_eq_true, decide_eq_true_eq] at h
        obtain ⟨rfl, hc⟩ := h
        refine ⟨us.reverse, t.kind, ?_⟩
        rw [← List.reverse_inj, hrev, ← hc]
        simp
    · cases h
  · rintro ⟨us, k, rfl⟩
    simp [endsGlued]

instance (c : Char) (w : Text) : Decidable (Glued c w) :=
  decidable_of_iff ((lexWord none w).toOption.any (endsGlued c) = true) <| by
    rw [Glued]
    cases lexWord none w with
    | error e => simp [Except.toOption]
    | ok ts => simp [Except.toOption, endsGlued_iff]

/-! ## Tokens that are parts of a formula -/

/-- How many of the tokens are no parentheses. -/
def parts (ts : List Token) : Nat :=
  ts.countP fun t => t.kind ≠ .openParen ∧ t.kind ≠ .closeParen

theorem parts_append (ts us : List Token) : parts (ts ++ us) = parts ts + parts us :=
  List.countP_append

theorem parts_le_of_absorbs {us : List Token} (h : Absorbs c ts us) : parts us ≤ parts ts := by
  cases h with
  | kept _ => exact Nat.le_refl _
  | absorbed ts k =>
      rw [parts_append, parts_append]
      exact Nat.add_le_add_left (Nat.zero_le _) _

theorem parts_lt_of_glued (hmarker : isMarker c = true) (hlast : w.OpensLast) (hglued : Glued c w)
    {us : List Token} (h : lexWord none w = .ok ts) (habsorbs : Absorbs c ts us) :
    parts us < parts ts := by
  obtain ⟨vs, k, hvs, -, hopen, hclose⟩ := exists_of_glued hmarker hlast hglued
  obtain rfl : ts = vs ++ [⟨k, [c]⟩, ⟨.openParen, ['(']⟩] := Except.ok.inj (h.symm.trans hvs)
  generalize hts : vs ++ [⟨k, [c]⟩, ⟨.openParen, ['(']⟩] = ts at habsorbs
  cases habsorbs with
  | kept hne => exact absurd hts.symm (hne vs k)
  | absorbed ts k' =>
      obtain ⟨rfl, hk⟩ := List.append_inj' hts rfl
      cases hk
      rw [parts_append, parts_append]
      exact Nat.add_lt_add_left (by simp [parts, hopen, hclose]) _

theorem parts_of_lexWords (hmarker : isMarker c = true) {ws : List Text}
    (hlast : ∀ w ∈ ws, w.OpensLast) {us : List Token} (h : lexWords none ws = .ok ts)
    (hus : lexWords (some c) ws = .ok us) :
    parts us ≤ parts ts ∧ ((∃ w ∈ ws, Glued c w) → parts us < parts ts) := by
  induction ws generalizing ts us with
  | nil =>
      cases h
      cases hus
      exact ⟨Nat.le_refl _, fun ⟨w, hw, _⟩ => absurd hw List.not_mem_nil⟩
  | cons w ws ih =>
      obtain ⟨ts₁, ts₂, hts₁, hts₂, rfl⟩ := lexWords_cons_eq_ok_iff.mp h
      obtain ⟨us₁, us₂, hus₁, hus₂, rfl⟩ := lexWords_cons_eq_ok_iff.mp hus
      obtain ⟨hw, hws⟩ := List.forall_mem_cons.mp hlast
      obtain ⟨us, habsorbs, hus⟩ := exists_lexWord_some c hw hts₁
      obtain rfl : us = us₁ := Except.ok.inj (hus.symm.trans hus₁)
      have hle := parts_le_of_absorbs habsorbs
      obtain ⟨hle', hlt⟩ := ih hws hts₂ hus₂
      rw [parts_append, parts_append]
      refine ⟨Nat.add_le_add hle hle', ?_⟩
      rintro ⟨w', hw', hglued⟩
      rcases List.mem_cons.mp hw' with rfl | hw'
      · exact Nat.add_lt_add_of_lt_of_le (parts_lt_of_glued hmarker hw hglued hts₁ habsorbs) hle'
      · exact Nat.add_lt_add_of_le_of_lt hle (hlt ⟨w', hw', hglued⟩)

theorem exists_append_of_mem_words {marker : Option Char} {ws : List Text} {us : List Token}
    (h : lexWords marker ws = .ok ts) (hw : w ∈ ws) (hus : lexWord marker w = .ok us) :
    ∃ before after, ts = before ++ (us ++ after) := by
  obtain ⟨ws₁, ws₂, rfl⟩ := List.append_of_mem hw
  rw [lexWords_append] at h
  cases h₁ : lexWords marker ws₁ with
  | error e => simp [h₁, Except.bind] at h
  | ok before =>
      rw [h₁, lexWords, hus] at h
      cases h₂ : lexWords marker ws₂ with
      | error e => simp [h₂, Except.bind, Except.map] at h
      | ok after =>
          rw [h₂] at h
          exact ⟨before, after, (Except.ok.inj h).symm⟩

end Token

namespace Formula

/-- How many parts a formula has, counting itself. -/
def size : Formula → Nat
  | literal _ | var _ _ => 1
  | not _ f => f.size + 1
  | binary _ _ f g => f.size + g.size + 1

theorem size_eq_of_same {f g : Formula} (h : f.same g = true) : f.size = g.size := by
  induction f generalizing g with
  | literal a | var a x =>
      cases g with
      | literal | var => rfl
      | not | binary => cases h
  | not a f ih =>
      cases g with
      | not b g =>
          rw [same, Bool.and_eq_true] at h
          rw [size, size, ih h.2]
      | literal | var | binary => cases h
  | binary op a f g ihf ihg =>
      cases g with
      | binary op' b f' g' =>
          simp only [same, Bool.and_eq_true] at h
          rw [size, size, ihf h.1.2, ihg h.2]
      | literal | var | not => cases h

end Formula

/-- The tokens that are no parentheses are the parts of the formula. -/
theorem Derivation.size_eq {phrase : Phrase} {ts : List Token} {f : Formula}
    (d : Derivation phrase ts f) : f.size = Token.parts ts := by
  induction d with
  | operand d ih => exact ih
  | @compound tier op lexeme ts us f g h d e ihd ihe =>
      have hop : Token.parts (⟨.connective op, lexeme⟩ :: us) = Token.parts us + 1 := by
        simp [Token.parts]
      rw [Formula.size, ihd, ihe, Token.parts_append, hop, Nat.add_assoc]
  | literal lexeme => rfl
  | var lexeme => rfl
  | @negation lexeme ts f d ih => simp [Formula.size, ih, Token.parts]
  | @group left right ts f d ih => simp [ih, Token.parts]

/-! ## What stands before a group

The pass over the tokens tells it: after a literal or a variable an operator is due. -/

namespace Pass

theorem run_start {phrase : Phrase} {ts : List Token} {f : Formula} (d : Derivation phrase ts f) :
    start.run ts = .ok () := by
  rw [← List.append_nil ts]
  exact run_derivation d 0 0 []

theorem exists_run_of_append {us ts : List Token} {p : Pass} (h : p.run (us ++ ts) = .ok ()) :
    ∃ q : Pass, q.run ts = .ok () := by
  induction us generalizing p with
  | nil => exact ⟨p, h⟩
  | cons t us ih =>
      rw [List.cons_append, run] at h
      split at h
      · cases h
      · exact ih h

/-- Where an operator is due no operand can begin. -/
theorem step_operator_ne_ok {t : Token} {k i : Nat}
    (ht : t.kind = .literal ∨ t.kind = .var ∨ t.kind = .openParen) (q : Pass) :
    step ⟨.operator, k, i⟩ t ≠ .ok q := by
  rcases ht with ht | ht | ht <;> simp only [step, ht] <;> split <;> simp

/-- No group follows directly on a literal or a variable. -/
theorem not_leaf_before_group {t u : Token} {ts : List Token} {p : Pass}
    (h : p.run (t :: u :: ts) = .ok ()) (hu : u.kind = .openParen) :
    t.kind ≠ .literal ∧ t.kind ≠ .var := by
  rw [← not_or]
  intro ht
  obtain ⟨due, k, i⟩ := p
  rw [run] at h
  cases due with
  | operator =>
      cases hstep : step ⟨.operator, k, i⟩ t with
      | error e => rw [hstep] at h; cases h
      | ok q => exact step_operator_ne_ok (ht.imp_right .inl) q hstep
  | operand =>
      have hstep : step ⟨.operand, k, i⟩ t = .ok ⟨.operator, k, i + 1⟩ := by
        rcases ht with ht | ht <;> simp only [step, ht]
      rw [hstep] at h
      dsimp only at h
      rw [run] at h
      cases hstep' : step ⟨.operator, k, i + 1⟩ u with
      | error e => rw [hstep'] at h; cases h
      | ok q => exact step_operator_ne_ok (.inr (.inr hu)) q hstep'

end Pass

/-! ## Statements with and without a marker -/

namespace Statement

variable {o : ParseOptions} {text : Text} {s : Statement} {c : Char}

/-- The signs that can be markers and by themselves spell an operator. -/
def operatorSigns : List Char :=
  ['~', '∧', '&', '∨', '⊕', '|', '⇒', '⇔']

theorem single_of_operator : ∀ k ∈ Kind.all, k ≠ .literal → k ≠ .openParen → k ≠ .closeParen →
    ∀ v ∈ k.spellings none [], v.length = 1 →
      (v.all fun c => !isMarker c || operatorSigns.contains c) = true := by
  decide

theorem mem_operatorSigns {k : Kind} (hmarker : isMarker c = true)
    (h : Token.FirstKind none [c] k) (hliteral : k ≠ .literal) (hvar : k ≠ .var)
    (hopen : k ≠ .openParen) (hclose : k ≠ .closeParen) : c ∈ operatorSigns := by
  have hmem := h.1
  rw [Token.spellings_eq hopen hvar] at hmem
  have hsingle := single_of_operator k (Token.mem_all k) hliteral hopen hclose [c] hmem rfl
  simpa [hmarker] using hsingle

/-- In a text that is accepted without a marker, only the sign of an operator can stand alone before
a parenthesis. -/
theorem mem_operatorSigns_of_glued (hmarker : isMarker c = true) {ts : List Token}
    (hlex : Token.lex none text = .ok ts) {f : Formula} (d : Derivation (.expression .loose) ts f)
    {w : Text} (hw : w ∈ Token.wordsOf text) (hglued : Token.Glued c w) : c ∈ operatorSigns := by
  obtain ⟨us, k, hus, hkind, hopen, hclose⟩ :=
    Token.exists_of_glued hmarker (Token.opensLast_of_mem_wordsOf hw) hglued
  obtain ⟨before, after, rfl⟩ := Token.exists_append_of_mem_words hlex hw hus
  obtain ⟨p, hp⟩ := @Pass.exists_run_of_append (before ++ us)
    (⟨k, [c]⟩ :: ⟨.openParen, ['(']⟩ :: after) .start (by simpa using Pass.run_start d)
  obtain ⟨hliteral, hvar⟩ := Pass.not_leaf_before_group hp rfl
  exact mem_operatorSigns hmarker hkind hliteral hvar hopen hclose

/-- A text that is accepted without a marker is accepted with any marker, with the same root and the
same variables, unless the marker stands alone before a parenthesis. Then it is the sign of an
operator that is taken for a marker, and the text is refused or has another root. -/
theorem parse_marked (hc : o.marker = some c) (h : parse o.unmarked text = .ok s) :
    ((∀ w ∈ Token.wordsOf text, ¬ Token.Glued c w) →
      ∃ s', parse o text = .ok s' ∧ s'.root = s.root ∧ s'.atoms = s.atoms) ∧
    ((∃ w ∈ Token.wordsOf text, Token.Glued c w) →
      c ∈ operatorSigns ∧ ∀ s', parse o text = .ok s' → s'.root.same s.root = false) := by
  have hmarker := ParseOptions.isMarker_of_marker hc
  obtain ⟨ts, hlex, f, d, hfit, rfl⟩ := parse_eq_ok_iff.mp h
  have hlast : ∀ w ∈ Token.wordsOf text, w.OpensLast :=
    fun w hw => Token.opensLast_of_mem_wordsOf hw
  constructor
  · intro hglued
    have hlex' : Token.lex o.marker text = .ok ts := by
      rw [hc]
      exact Token.lexWords_some_of_not_glued hlast hlex hglued
    exact ⟨_, parse_eq_ok_iff.mpr ⟨ts, hlex', f, d, hfit, rfl⟩, rfl, rfl⟩
  · rintro ⟨w, hw, hglued⟩
    refine ⟨mem_operatorSigns_of_glued hmarker hlex d hw hglued, fun s' hs' => ?_⟩
    obtain ⟨us, hlex', g, e, -, rfl⟩ := parse_eq_ok_iff.mp hs'
    rw [hc] at hlex'
    have hlt := (Token.parts_of_lexWords hmarker hlast hlex hlex').2 ⟨w, hw, hglued⟩
    rw [← d.size_eq, ← e.size_eq] at hlt
    rw [Bool.eq_false_iff]
    intro hsame
    exact absurd (Formula.size_eq_of_same hsame) (Nat.ne_of_lt hlt)

theorem parse_marked_doubled_sign :
    let o : ParseOptions := { marker := some '&' }
    ∃ s s', parse o.unmarked "p&&(q)".toList = .ok s ∧ parse o "p&&(q)".toList = .ok s' ∧
      s'.root = s.root ∧ s'.atoms = s.atoms := by
  intro o
  let s : Statement := ⟨"p&&(q)".toList,
    .binary .and ['&', '&'] (.var ['p'] ['p']) (.var ['q'] ['q']), [['p'], ['q']], []⟩
  have hparse : parse o.unmarked "p&&(q)".toList = .ok s := by decide +kernel
  have hglued : ∀ w ∈ Token.wordsOf "p&&(q)".toList, ¬ Token.Glued '&' w := by decide +kernel
  obtain ⟨s', hs', hroot, hatoms⟩ := (parse_marked rfl hparse).1 hglued
  exact ⟨s, s', hparse, hs', hroot, hatoms⟩

/-- A sign of an operator can be the marker. Before a group it is not the operator then: a connective
is missed where it stands, and a negation is lost without notice. -/
theorem marker_absorbs_operator :
    (∃ s, parse { marker := none } "p&(q)".toList = .ok s) ∧
      parse { marker := some '&' } "p&(q)".toList =
        .error (.misplacedToken ⟨.openParen, ['&', '(']⟩ 1) ∧
      ∃ s s', parse { marker := none } "~(p)".toList = .ok s ∧
        parse { marker := some '~' } "~(p)".toList = .ok s' ∧
        s.root = .not ['~'] (.var ['p'] ['p']) ∧ s'.root = .var ['p'] ['p'] := by
  let p : Formula := .var ['p'] ['p']
  let q : Formula := .var ['q'] ['q']
  have hconnective : parse { marker := none } "p&(q)".toList =
      .ok ⟨"p&(q)".toList, .binary .and ['&'] p q, [['p'], ['q']], []⟩ := by decide +kernel
  have hnegation : parse { marker := none } "~(p)".toList =
      .ok ⟨"~(p)".toList, .not ['~'] p, [['p']], []⟩ := by decide +kernel
  have hlost : parse { marker := some '~' } "~(p)".toList =
      .ok ⟨"~(p)".toList, p, [['p']], [p]⟩ := by decide +kernel
  exact ⟨⟨_, hconnective⟩, by decide +kernel, _, _, hnegation, hlost, rfl, rfl⟩

end Statement

end Sentential
