import Sentential.Token.Lexer

/-!
# The words of an expression

Words are what stands between blanks, and one equation says so: around a blank, the words of a text
are the words before it and the words behind it. What the separators do is then a matter of where
they put blanks. For the lexer one consequence counts: an opening parenthesis is always followed by
a blank, so that in a word it can only be the last character, and a marked parenthesis never has
anything glued behind it. And whoever writes tokens down may keep them apart with blanks.
-/

namespace Sentential

namespace Text

variable {c d : Char} {t : Text}

theorem words_of_isBlank (hc : isBlank c = true) : words (c :: t) = words t := by
  rw [words, if_pos hc]

theorem words_cons_end (hc : isBlank c = false) (ht : ∀ d, t.head? = some d → isBlank d = true) :
    words (c :: t) = [c] :: words t := by
  rw [words, if_neg (by simp [hc])]
  cases t with
  | nil => rfl
  | cons d t =>
      have hd := ht d rfl
      cases words (d :: t) <;> simp [hd]

theorem exists_words_eq_cons (hc : isBlank c = false) :
    ∃ w ws, words (c :: t) = w :: ws := by
  rw [words, if_neg (by simp [hc])]
  split
  · split <;> exact ⟨_, _, rfl⟩
  · exact ⟨_, _, rfl⟩

theorem words_cons_cons (hc : isBlank c = false) (hd : isBlank d = false) {w : Text}
    {ws : List Text} (hw : words (d :: t) = w :: ws) : words (c :: d :: t) = (c :: w) :: ws := by
  rw [words, if_neg (by simp [hc]), hw]
  simp [hd]

/-- A character that is no blank is a word of its own or begins the next one. -/
theorem words_cons_cases (hc : isBlank c = false) (t : Text) :
    words (c :: t) = [c] :: words t ∨
      ∃ w ws, words t = w :: ws ∧ words (c :: t) = (c :: w) :: ws := by
  cases t with
  | nil => exact .inl (words_cons_end hc (by simp))
  | cons d t =>
      by_cases hd : isBlank d = true
      · exact .inl (words_cons_end hc (by simp [hd]))
      · rw [Bool.not_eq_true] at hd
        obtain ⟨w, ws, hw⟩ := @exists_words_eq_cons d t hd
        exact .inr ⟨w, ws, hw, words_cons_cons hc hd hw⟩

theorem words_singleton (h : isBlank c = false) : words [c] = [[c]] :=
  words_cons_end h (by simp)

/-- A blank parts the words before it from the words behind it. -/
theorem words_append_blank (hc : isBlank c = true) (s t : Text) :
    words (s ++ c :: t) = words s ++ words t := by
  induction s with
  | nil => exact words_of_isBlank hc
  | cons a s ih =>
      by_cases ha : isBlank a = true
      · rw [List.cons_append, words_of_isBlank ha, words_of_isBlank ha, ih]
      · rw [Bool.not_eq_true] at ha
        cases s with
        | nil =>
            rw [List.cons_append, words_cons_end ha (by simp [hc]), ih,
              words_cons_end ha (by simp)]
            rfl
        | cons b s =>
            by_cases hb : isBlank b = true
            · rw [List.cons_append, words_cons_end ha (by simp [hb]), ih,
                words_cons_end ha (by simp [hb])]
              rfl
            · rw [Bool.not_eq_true] at hb
              obtain ⟨w, ws, hw⟩ := @exists_words_eq_cons b s hb
              rw [hw] at ih
              rw [words_cons_cons ha hb hw]
              exact words_cons_cons ha hb ih

/-- Nothing stands behind an opening parenthesis. -/
def OpensLast (w : Text) : Prop :=
  ∀ v s, w = v ++ '(' :: s → s = []

theorem OpensLast.suffix {v s : Text} (h : OpensLast (v ++ s)) : OpensLast s :=
  fun u r hs => h (v ++ u) r (by rw [hs, List.append_assoc])

theorem opensLast_of_mem_words (h : ∀ v d s, t = v ++ '(' :: d :: s → isBlank d = true) :
    ∀ w ∈ words t, OpensLast w := by
  induction t with
  | nil => exact fun w hw => absurd hw (by simp [words])
  | cons c t ih =>
      have ih' := ih fun v d s hts => h (c :: v) d s (by rw [hts, List.cons_append])
      by_cases hc : isBlank c = true
      · rwa [words_of_isBlank hc]
      rw [Bool.not_eq_true] at hc
      have single : OpensLast [c] := by
        intro v s hvs
        have hlen := congrArg List.length hvs
        simp only [List.length_append, List.length_cons, List.length_nil] at hlen
        exact List.eq_nil_of_length_eq_zero (by omega)
      cases t with
      | nil =>
          rw [words_cons_end hc (by simp)]
          exact List.forall_mem_cons.mpr ⟨single, fun w hw => absurd hw (by simp [words])⟩
      | cons d t =>
          by_cases hd : isBlank d = true
          · rw [words_cons_end hc (by simp [hd])]
            exact List.forall_mem_cons.mpr ⟨single, ih'⟩
          · rw [Bool.not_eq_true] at hd
            obtain ⟨w, ws, hw⟩ := @exists_words_eq_cons d t hd
            rw [hw] at ih'
            rw [words_cons_cons hc hd hw]
            obtain ⟨hfirst, hrest⟩ := List.forall_mem_cons.mp ih'
            refine List.forall_mem_cons.mpr ⟨fun v s hvs => ?_, hrest⟩
            cases v with
            | nil =>
                injection hvs with hparen _
                have := h [] d t (by rw [hparen]; rfl)
                rw [hd] at this
                contradiction
            | cons a v =>
                injection hvs with _ hvs
                exact hfirst v s hvs

/-! ## Blanks and word characters -/

theorem exists_of_inRanges {n : Nat} {ranges : List (Nat × Nat)} (h : inRanges n ranges = true) :
    ∃ r ∈ ranges, r.1 ≤ n ∧ n ≤ r.2 := by
  induction ranges with
  | nil => cases h
  | cons r ranges ih =>
      simp only [inRanges, Bool.and_eq_true, Bool.or_eq_true, decide_eq_true_eq] at h
      rcases h.2 with hn | hn
      · exact ⟨r, List.mem_cons_self, h.1, hn⟩
      · obtain ⟨r', hr', hn'⟩ := ih hn
        exact ⟨r', List.mem_cons_of_mem _ hr', hn'⟩

theorem not_alphanumeric_of_blank :
    (blankRanges.all fun r => (List.range' r.1 (r.2 + 1 - r.1)).all fun n =>
      !inRanges n alphanumericRanges) = true := by
  decide +kernel

theorem not_isBlank_of_isWordChar (h : isWordChar c = true) : isBlank c = false := by
  cases hblank : isBlank c with
  | false => rfl
  | true =>
      have hunderscore : c ≠ '_' := fun heq => absurd (heq ▸ hblank) (by decide)
      obtain ⟨r, hr, hlow, hhigh⟩ := exists_of_inRanges hblank
      have hall := List.all_eq_true.mp (List.all_eq_true.mp not_alphanumeric_of_blank r hr)
        c.toNat (List.mem_range'_1.mpr (by omega))
      simp [isWordChar, isAlphanumeric, hunderscore] at h
      simp [h] at hall

/-! ## Separators -/

theorem spaced_append (s t : Text) : spaced (s ++ t) = spaced s ++ spaced t := by
  simp [spaced]

theorem spaced_cons (c : Char) (t : Text) : spaced (c :: t) = spaced [c] ++ spaced t :=
  spaced_append [c] t

/-- Blanks are put around the characters that always end a word, and around no others. -/
theorem spaced_single (h : "()!¬".toList.contains c = false) : spaced [c] = [c] := by
  have hseparator : ∀ d ∈ "()!¬".toList, c ≠ d := by
    rintro d hd rfl
    rw [List.contains_iff_mem.mpr hd] at h
    cases h
  simp [spaced, hseparator '(' (by decide), hseparator ')' (by decide),
    hseparator '!' (by decide), hseparator '¬' (by decide)]

theorem isBlank_of_spaced : ∀ {t v : Text} {d : Char} {s : Text},
    spaced t = v ++ '(' :: d :: s → isBlank d = true := by
  intro t
  induction t with
  | nil =>
      intro v d s h
      simp [spaced] at h
  | cons c t ih =>
      intro v d s h
      rw [spaced_cons] at h
      by_cases hc : c = '('
      · subst hc
        have h' : '(' :: ' ' :: spaced t = v ++ '(' :: d :: s := h
        match v with
        | [] =>
            injection h' with _ h'
            injection h' with h' _
            rw [← h']
            decide
        | [_] => injection h' with _ h'; injection h' with h' _; exact absurd h' (by decide)
        | _ :: _ :: v =>
            injection h' with _ h'
            injection h' with _ h'
            exact ih h'
      · -- no other character puts a parenthesis into the text
        have hmem : '(' ∉ spaced [c] := by
          have hc' : '(' ≠ c := fun heq => hc heq.symm
          simp only [spaced, List.flatMap_cons, List.flatMap_nil, List.append_nil, if_neg hc]
          split
          · decide
          · split <;> simp [hc']
        rcases List.append_eq_append_iff.mp h with ⟨u, hv, hs⟩ | ⟨u, hv, hs⟩
        · exact ih hs
        · cases u with
          | nil => exact ih (v := []) hs.symm
          | cons a u =>
              injection hs with hs _
              exact absurd (hv ▸ hs ▸ by simp) hmem

end Text

namespace Token

theorem opensLast_of_mem_wordsOf {text w : Text} (h : w ∈ wordsOf text) : w.OpensLast :=
  Text.opensLast_of_mem_words (fun _ _ _ hs => Text.isBlank_of_spaced hs) w h

/-! ## Writing tokens down

A list of tokens can be written with a blank behind each of them. It is read back if each token by
itself is, since the blanks keep the tokens apart. -/

/-- The lexemes, each with a blank behind it. -/
def spelled (ts : List Token) : Text :=
  ts.flatMap fun t => t.lexeme ++ [' ']

/-- Written down alone, the token is a word and read as what it is. -/
def Plain (marker : Option Char) (t : Token) : Prop :=
  wordsOf t.lexeme = [t.lexeme] ∧ wholeKind? marker t.lexeme = some t.kind

instance (marker : Option Char) (t : Token) : Decidable (t.Plain marker) :=
  inferInstanceAs (Decidable (_ ∧ _))

theorem contains_spellings_none {marker : Option Char} {v : Text}
    (hv : ∀ m, marker = some m → v ≠ [m, '(']) (k : Kind) :
    (k.spellings marker v).contains v = (k.spellings none v).contains v := by
  cases k with
  | openParen =>
      cases marker with
      | none => rfl
      | some m => simp [Kind.spellings, hv m rfl]
  | connective op => cases op <;> rfl
  | negation | closeParen | literal | var => rfl

/-- A marker is no part of any token but its own parenthesis. -/
theorem wholeKind?_none {marker : Option Char} {v : Text}
    (hv : ∀ m, marker = some m → v ≠ [m, '(']) : wholeKind? marker v = wholeKind? none v := by
  simp only [wholeKind?, contains_spellings_none hv]

theorem wholeKind?_single (marker : Option Char) (c : Char) :
    wholeKind? marker [c] = wholeKind? none [c] :=
  wholeKind?_none (by simp)

theorem plain_of_none {c : Char} {k : Kind} (marker : Option Char) (h : Plain none ⟨k, [c]⟩) :
    Plain marker ⟨k, [c]⟩ :=
  ⟨h.1, (wholeKind?_single marker c).trans h.2⟩

theorem wordsOf_append_blank (s t : Text) :
    wordsOf (s ++ ' ' :: t) = wordsOf s ++ wordsOf t := by
  have hblank : Text.spaced (s ++ ' ' :: t) = Text.spaced s ++ ' ' :: Text.spaced t := by
    simp [Text.spaced]
  rw [wordsOf, hblank, Text.words_append_blank (by decide)]
  rfl

theorem lexWord_of_wholeKind {marker : Option Char} {w : Text} {k : Kind} (hw : w ≠ [])
    (hk : wholeKind? marker w = some k) : lexWord marker w = .ok [⟨k, w⟩] := by
  rw [lexWord, if_neg hw, hk]

theorem lexWords_append (marker : Option Char) (ws vs : List Text) :
    lexWords marker (ws ++ vs) =
      (lexWords marker ws).bind fun ts => (lexWords marker vs).map (ts ++ ·) := by
  induction ws with
  | nil => cases h : lexWords marker vs <;> simp [h, lexWords, Except.bind, Except.map]
  | cons w ws ih =>
      rw [List.cons_append, lexWords, lexWords, ih]
      cases lexWord marker w with
      | error e => rfl
      | ok us =>
          cases lexWords marker ws with
          | error e => rfl
          | ok ts => cases lexWords marker vs <;> simp [Except.bind, Except.map]

theorem lexWords_append_of_ok {marker : Option Char} {ws vs : List Text} {ts us : List Token}
    (hws : lexWords marker ws = .ok ts) (hvs : lexWords marker vs = .ok us) :
    lexWords marker (ws ++ vs) = .ok (ts ++ us) := by
  rw [lexWords_append, hws, hvs]
  rfl

theorem lex_plain {marker : Option Char} {t : Token} (h : t.Plain marker) :
    lex marker t.lexeme = .ok [t] := by
  obtain ⟨hword, hkind⟩ := h
  have hne : t.lexeme ≠ [] := by
    intro hnil
    rw [hnil] at hword
    cases hword
  rw [lex, hword, lexWords, lexWord_of_wholeKind hne hkind]
  rfl

theorem lex_append_blank {marker : Option Char} {s t : Text} {ts us : List Token}
    (hs : lex marker s = .ok ts) (ht : lex marker t = .ok us) :
    lex marker (s ++ ' ' :: t) = .ok (ts ++ us) := by
  rw [lex, wordsOf_append_blank]
  exact lexWords_append_of_ok hs ht

theorem lex_spelled {marker : Option Char} {ts : List Token} (h : ∀ t ∈ ts, t.Plain marker) :
    lex marker (spelled ts) = .ok ts := by
  induction ts with
  | nil => rfl
  | cons t ts ih =>
      obtain ⟨ht, hts⟩ := List.forall_mem_cons.mp h
      rw [spelled, List.flatMap_cons, List.append_assoc]
      exact lex_append_blank (lex_plain ht) (ih hts)

end Token

end Sentential
