import Mathlib.Control.Monad.Basic
import Sentential.Formula.Printer
import Sentential.Proofs.Variables

/-!
# Printed formulas are read back

A printed formula has a group around every compound and no other groups. So its tokens can be
written down beside the printer, and two things are to be shown about them. They have a derivation
for the formula, whatever the tiers of its connectives are, since every operand is a factor; groups
and negations lie in it as deep as compounds and negations do in the formula. And they are what the
lexer finds in the printed text. There almost all of them stand between blanks or separators. The
one exception is the negation `~`, which is glued to its operand, and which is the longest lexeme
there unless it is taken for the marker of a group.

The lexemes of a formula that was read are lexemes of their kinds under any marker, because a marker
shows in parentheses only, and the formula keeps none of these.
-/

namespace Sentential

/-! ## Lexemes under any marker -/

namespace Token

theorem wordsOf_wordChar {c : Char} (h : Text.isWordChar c = true) : wordsOf [c] = [[c]] := by
  have hseparator : "()!¬".toList.contains c = false := by
    refine Bool.eq_false_iff.mpr fun hmem => ?_
    have hall : ("()!¬".toList.all fun d => !Text.isWordChar d) = true := by decide
    simpa [h] using List.all_eq_true.mp hall c (List.contains_iff_mem.mp hmem)
  rw [wordsOf, Text.spaced_single hseparator,
    Text.words_singleton (Text.not_isBlank_of_isWordChar h)]

theorem wordsOf_sign : ∀ v ∈ signs, wordsOf v = [v] := by decide

theorem ne_marked_of_mem_signs {v : Text} (hv : v ∈ signs) (m : Char) : v ≠ [m, '('] := by
  rintro rfl
  have := eq_paren_of_mem_signs _ hv (by simp)
  simp at this

/-- Beside the opening parentheses no token has to do with a marker. -/
theorem plain_of_firstKind {marker : Option Char} {t : Token}
    (h : FirstKind marker t.lexeme t.kind) (hopen : t.kind ≠ .openParen) (marker' : Option Char) :
    t.Plain marker' := by
  have hkind := wholeKind?_eq_some_iff.mpr h
  by_cases hvar : t.kind = .var
  · rw [hvar] at h
    obtain ⟨c, hc, hword, -⟩ := exists_char_of_var h
    rw [Plain, hc, wordsOf_wordChar hword, wholeKind?_single, ← wholeKind?_single marker, ← hc, hkind]
    exact ⟨rfl, rfl⟩
  · have hsign : t.lexeme ∈ signs := mem_signs_of_mem_spellings hopen hvar h.1
    have hmarked : ∀ m : Char, t.lexeme ≠ [m, '('] := ne_marked_of_mem_signs hsign
    refine ⟨wordsOf_sign _ hsign, ?_⟩
    rw [wholeKind?_none fun m _ => hmarked m, ← wholeKind?_none fun m _ => hmarked m, hkind]

/-! ## Putting printed pieces together

What the lexer finds in a text with a parenthesis, a blank or a negation put to it are the tokens of
the text with one more. -/

variable {marker : Option Char} {t : Text} {ts : List Token}

theorem plain_openParen (marker : Option Char) : Plain marker ⟨.openParen, ['(']⟩ :=
  plain_of_none marker (by decide)

theorem plain_closeParen (marker : Option Char) : Plain marker ⟨.closeParen, [')']⟩ :=
  plain_of_none marker (by decide)

theorem lex_of_wordsOf_eq_cons {s : Text} {u : Token} (hwords : wordsOf s = u.lexeme :: wordsOf t)
    (hu : u.Plain marker) (h : lex marker t = .ok ts) : lex marker s = .ok (u :: ts) := by
  have hne : u.lexeme ≠ [] := ne_nil_of_isLexeme ⟨u.kind, (wholeKind?_eq_some_iff.mp hu.2).1⟩
  rw [lex] at h ⊢
  rw [hwords, lexWords, lexWord_of_wholeKind hne hu.2, h]
  rfl

theorem lex_openParen (h : lex marker t = .ok ts) :
    lex marker ('(' :: t) = .ok (⟨.openParen, ['(']⟩ :: ts) := by
  have hwords : wordsOf ('(' :: t) = ['('] :: wordsOf t :=
    Text.words_append_blank (by decide) ['('] (Text.spaced t)
  exact lex_of_wordsOf_eq_cons hwords (plain_openParen marker) h

theorem lex_closeParen (h : lex marker t = .ok ts) :
    lex marker (t ++ [')']) = .ok (ts ++ [⟨.closeParen, [')']⟩]) := by
  have hspaced : Text.spaced (t ++ [')']) = Text.spaced t ++ ' ' :: [')'] := by
    simp [Text.spaced]
  have hwords : wordsOf (t ++ [')']) = wordsOf t ++ wordsOf [')'] := by
    rw [wordsOf, hspaced, Text.words_append_blank (by decide)]
    rfl
  rw [lex, hwords]
  exact lexWords_append_of_ok h (lex_plain (plain_closeParen marker))

/-- The negation signs that separate words stand apart from anything. -/
theorem lex_separated {c : Char} (hc : c = '!' ∨ c = '¬') (h : lex marker t = .ok ts) :
    lex marker (c :: t) = .ok (⟨.negation, [c]⟩ :: ts) := by
  have hblank : Text.isBlank ' ' = true := by decide
  have hspaced : Text.spaced (c :: t) = ' ' :: ([c] ++ ' ' :: Text.spaced t) := by
    rcases hc with rfl | rfl <;> rfl
  have hplain : Plain marker ⟨.negation, [c]⟩ :=
    plain_of_none marker (by rcases hc with rfl | rfl <;> decide)
  have hsingle : Text.words [c] = [[c]] := by rcases hc with rfl | rfl <;> decide
  have hwords : wordsOf (c :: t) = [c] :: wordsOf t := by
    rw [wordsOf, hspaced, Text.words_of_isBlank hblank, Text.words_append_blank hblank, hsingle]
    rfl
  exact lex_of_wordsOf_eq_cons hwords hplain h

theorem sign_of_tilde : ∀ v ∈ signs, v.head? = some '~' → v = ['~'] := by decide

theorem firstKind_tilde (marker : Option Char) : FirstKind marker ['~'] .negation :=
  wholeKind?_eq_some_iff.mp ((wholeKind?_single marker '~').trans (by decide))

/-- No lexeme but a marked parenthesis is longer than the tilde it begins with. -/
theorem longest_tilde (hmarker : marker ≠ some '~') (w : Text) : Longest marker ['~'] w := by
  refine ⟨admissible_of_notWordChar ⟨_, (firstKind_tilde marker).1⟩ rfl (by decide), ?_⟩
  intro u r heq hu
  obtain ⟨c, u, rfl⟩ := List.exists_cons_of_ne_nil (ne_nil_of_isLexeme hu.1)
  injection heq with hc _
  subst hc
  rcases isLexeme_iff.mp hu.1 with hsign | ⟨m, hm, hv⟩ | ⟨d, -, hv⟩
  · rw [sign_of_tilde _ hsign rfl]
  · injection hv with hc _
    exact absurd (hc ▸ hm) hmarker
  · rw [hv]
    exact Nat.le_refl 1

/-- The tilde is read alone, be it glued to the next word or not. -/
theorem lex_tilde (hmarker : marker ≠ some '~') (h : lex marker t = .ok ts) :
    lex marker ('~' :: t) = .ok (⟨.negation, ['~']⟩ :: ts) := by
  have hspaced : wordsOf ('~' :: t) = Text.words ('~' :: Text.spaced t) :=
    congrArg Text.words (Text.spaced_cons '~' t)
  rcases @Text.words_cons_cases '~' (by decide) (Text.spaced t) with
    halone | ⟨w, ws, hw, hglued⟩
  · exact lex_of_wordsOf_eq_cons (hspaced.trans halone)
      ⟨by decide, wholeKind?_eq_some_iff.mpr (firstKind_tilde marker)⟩ h
  · have hlast : Text.OpensLast ('~' :: w) :=
      @opensLast_of_mem_wordsOf ('~' :: t) _ (hspaced.trans hglued ▸ List.mem_cons_self)
    rw [lex, wordsOf, hw] at h
    obtain ⟨us, vs, hus, hvs, rfl⟩ := lexWords_cons_eq_ok_iff.mp h
    have hword : lexWord marker ('~' :: w) = .ok (⟨.negation, ['~']⟩ :: us) := by
      have happend := @lexWord_append marker .negation ['~'] w hlast (longest_tilde hmarker w)
        (firstKind_tilde marker)
      rwa [hus] at happend
    rw [lex, hspaced, hglued]
    exact lexWords_cons_eq_ok_iff.mpr ⟨_, vs, hword, hvs, rfl⟩

theorem negation_cases : ∀ v ∈ Kind.negation.spellings none [],
    v = ['~'] ∨ v = ['!'] ∨ v = ['¬'] ∨ v.getLast?.any Text.isAlphanumeric = true := by
  decide

/-- A negation is read back from what is printed for it: its sign before the operand, or its word
apart from it. -/
theorem lex_negation (hmarker : marker ≠ some '~') {v : Text}
    (hv : Plain marker ⟨.negation, v⟩) (h : lex marker t = .ok ts) :
    ∃ c, v.getLast? = some c ∧
      lex marker (v ++ if Text.isAlphanumeric c then ' ' :: t else t) =
        .ok (⟨.negation, v⟩ :: ts) := by
  rcases negation_cases v (wholeKind?_eq_some_iff.mp hv.2).1 with rfl | rfl | rfl | hword
  · exact ⟨'~', rfl, lex_tilde hmarker h⟩
  · exact ⟨'!', rfl, lex_separated (.inl rfl) h⟩
  · exact ⟨'¬', rfl, lex_separated (.inr rfl) h⟩
  · obtain ⟨c, hc, halphanumeric⟩ := (Option.any_eq_true _ _).mp hword
    refine ⟨c, hc, ?_⟩
    rw [if_pos halphanumeric]
    exact lex_append_blank (lex_plain hv) h

end Token

/-! ## The tokens of a printed formula -/

namespace Formula

/-- The tokens of the printed formula: every compound of two is a group, and there are no other
groups. -/
def tokens : Formula → List Token
  | literal lexeme => [⟨.literal, lexeme⟩]
  | var _ name => [⟨.var, name⟩]
  | not lexeme f => ⟨.negation, lexeme⟩ :: f.tokens
  | binary op lexeme f g =>
    ⟨.openParen, ['(']⟩ :: (f.tokens ++ ⟨.connective op, lexeme⟩ :: g.tokens ++
      [⟨.closeParen, [')']⟩])

theorem lex_print {marker : Option Char} (hmarker : marker ≠ some '~') {f : Formula}
    (hplain : ∀ t ∈ f.tokens, t.Plain marker) :
    ∃ text, f.print? = some text ∧ Token.lex marker text = .ok f.tokens := by
  induction f with
  | literal lexeme => exact ⟨lexeme, rfl, Token.lex_plain (hplain _ List.mem_cons_self)⟩
  | var lexeme name => exact ⟨name, rfl, Token.lex_plain (hplain _ List.mem_cons_self)⟩
  | not lexeme f ih =>
      obtain ⟨hnot, hf⟩ := List.forall_mem_cons.mp hplain
      obtain ⟨text, hprint, hlex⟩ := ih hf
      obtain ⟨c, hlast, hlex⟩ := Token.lex_negation hmarker hnot hlex
      exact ⟨_, by rw [print?, hlast, hprint], hlex⟩
  | binary op lexeme f g ihf ihg =>
      have hpart : ∀ t ∈ f.tokens ++ ⟨.connective op, lexeme⟩ :: g.tokens, t.Plain marker :=
        fun t ht => hplain t (List.mem_cons_of_mem _ (List.mem_append_left _ ht))
      obtain ⟨hf, hopg⟩ := List.forall_mem_append.mp hpart
      obtain ⟨hop, hg⟩ := List.forall_mem_cons.mp hopg
      obtain ⟨left, hprintf, hlexf⟩ := ihf hf
      obtain ⟨right, hprintg, hlexg⟩ := ihg hg
      refine ⟨_, by rw [print?, hprintf, hprintg], ?_⟩
      have hinner : Token.lex marker (left ++ ' ' :: (lexeme ++ ' ' :: right)) =
          .ok (f.tokens ++ ⟨.connective op, lexeme⟩ :: g.tokens) :=
        Token.lex_append_blank hlexf (Token.lex_append_blank (Token.lex_plain hop) hlexg)
      have hlex := Token.lex_openParen (Token.lex_closeParen hinner)
      simpa [tokens] using hlex

/-- Whatever is printed is the lexemes of the tokens and spaces. -/
theorem mem_of_print {f : Formula} {printed : Text} (h : f.print? = some printed) {c : Char}
    (hc : c ∈ printed) : c = ' ' ∨ ∃ t ∈ f.tokens, c ∈ t.lexeme := by
  induction f generalizing printed with
  | literal lexeme =>
      cases h
      exact .inr ⟨_, List.mem_singleton_self _, hc⟩
  | var lexeme name =>
      cases h
      exact .inr ⟨_, List.mem_singleton_self _, hc⟩
  | not lexeme f ih =>
      rw [print?] at h
      split at h
      · next last text hlast hprint =>
          cases h
          rcases List.mem_append.mp hc with hc | hc
          · exact .inr ⟨_, List.mem_cons_self, hc⟩
          · have hrest : c = ' ' ∨ c ∈ text := by
              split at hc
              · exact List.mem_cons.mp hc
              · exact .inr hc
            refine hrest.elim .inl fun hc => (ih hprint hc).imp_right ?_
            exact fun ⟨t, ht, hc⟩ => ⟨t, List.mem_cons_of_mem _ ht, hc⟩
      · cases h
  | binary op lexeme f g ihf ihg =>
      rw [print?] at h
      split at h
      · next left right hleft hright =>
          cases h
          have hinner : ∀ t ∈ f.tokens ++ ⟨.connective op, lexeme⟩ :: g.tokens,
              t ∈ (binary op lexeme f g).tokens :=
            fun t ht => List.mem_cons_of_mem _ (List.mem_append_left _ ht)
          simp only [List.mem_cons, List.mem_append, List.not_mem_nil, or_false] at hc
          obtain (((rfl | hc) | rfl | hc) | rfl | hc) | rfl := hc
          · exact .inr ⟨_, List.mem_cons_self, List.mem_singleton_self _⟩
          · refine (ihf hleft hc).imp_right fun ⟨t, ht, hc⟩ => ⟨t, hinner t ?_, hc⟩
            exact List.mem_append_left _ ht
          · exact .inl rfl
          · exact .inr ⟨_, hinner _ (List.mem_append_right _ List.mem_cons_self), hc⟩
          · exact .inl rfl
          · refine (ihg hright hc).imp_right fun ⟨t, ht, hc⟩ => ⟨t, hinner t ?_, hc⟩
            exact List.mem_append_right _ (List.mem_cons_of_mem _ ht)
          · refine .inr ⟨⟨.closeParen, [')']⟩, ?_, List.mem_singleton_self _⟩
            exact List.mem_cons_of_mem _ (List.mem_append_right _ List.mem_cons_self)
      · cases h

theorem exists_printList {fs : List Formula} (h : ∀ f ∈ fs, ∃ printed, f.print? = some printed) :
    ∃ printed, printList? fs = some printed := by
  induction fs with
  | nil => exact ⟨[], rfl⟩
  | cons f fs ih =>
    obtain ⟨⟨first, hfirst⟩, hrest⟩ := List.forall_mem_cons.mp h
    obtain ⟨others, hothers⟩ := ih hrest
    exact ⟨first :: others, by rw [printList?, hfirst, hothers]⟩

theorem forall₂_of_printList {fs : List Formula} {texts : List Text}
    (h : printList? fs = some texts) : List.Forall₂ (fun f text => f.print? = some text) fs texts := by
  induction fs generalizing texts with
  | nil =>
      cases h
      exact .nil
  | cons f fs ih =>
      rw [printList?] at h
      split at h
      · next text rest hf hfs =>
          cases h
          exact .cons hf (ih hfs)
      · cases h

end Formula

/-- A parenthesis without a marker records nothing. -/
theorem recorded_paren {marker : Option Char} (hmarker : marker ≠ some '(') (f : Formula) :
    recorded marker ['('] f = [] := by
  cases marker with
  | none => rfl
  | some c =>
      have hc : '(' ≠ c := fun heq => hmarker (congrArg some heq.symm)
      simp [recorded, hc]

namespace Derivation

variable {phrase : Phrase} {ts : List Token} {f : Formula}

/-- Every token of the printed formula is one of its own, but for the parentheses around its
compounds. -/
theorem mem_of_mem_tokens (d : Derivation phrase ts f) {t : Token} (ht : t ∈ f.tokens) :
    t = ⟨.openParen, ['(']⟩ ∨ t = ⟨.closeParen, [')']⟩ ∨ t ∈ ts ∧ t.kind ≠ .openParen := by
  induction d with
  | operand d ih => exact ih ht
  | compound h d e ihd ihe =>
      simp only [Formula.tokens, List.mem_cons, List.mem_append] at ht
      rcases ht with rfl | (ht | rfl | ht) | ht
      · exact .inl rfl
      · exact (ihd ht).imp_right (.imp_right (.imp_left (List.mem_append_left _)))
      · exact .inr (.inr ⟨List.mem_append_right _ List.mem_cons_self, by simp⟩)
      · exact (ihe ht).imp_right (.imp_right (.imp_left fun hts =>
          List.mem_append_right _ (List.mem_cons_of_mem _ hts)))
      · exact .inr (.inl (List.mem_singleton.mp (List.mem_cons.mpr ht)))
  | literal lexeme => exact .inr (.inr ⟨ht, by simp [List.mem_singleton.mp ht]⟩)
  | var lexeme => exact .inr (.inr ⟨ht, by simp [List.mem_singleton.mp ht]⟩)
  | negation d ih =>
      rcases List.mem_cons.mp ht with rfl | ht
      · exact .inr (.inr ⟨List.mem_cons_self, by simp⟩)
      · exact (ih ht).imp_right (.imp_right (.imp_left (List.mem_cons_of_mem _)))
  | group d ih =>
      exact (ih ht).imp_right (.imp_right (.imp_left fun hts =>
        List.mem_cons_of_mem _ (List.mem_append_left _ hts)))

/-- A factor is a phrase of any kind, and this adds neither nesting nor marks. -/
theorem exists_of_factor (phrase : Phrase) (d : Derivation .factor ts f) :
    ∃ e : Derivation phrase ts f, e.nesting = d.nesting ∧ ∀ m, e.marks m = d.marks m := by
  match phrase with
  | .factor => exact ⟨d, rfl, fun _ => rfl⟩
  | .expression .tight => exact ⟨@operand .tight ts f d, rfl, fun _ => rfl⟩
  | .expression .middle =>
      exact ⟨@operand .middle ts f (@operand .tight ts f d), rfl, fun _ => rfl⟩
  | .expression .loose =>
      exact ⟨@operand .loose ts f (@operand .middle ts f (@operand .tight ts f d)), rfl,
        fun _ => rfl⟩

theorem exists_of_expression {tier : Tier} (d : Derivation (.expression tier) ts f) :
    ∃ e : Derivation (.expression .loose) ts f,
      e.nesting = d.nesting ∧ ∀ m, e.marks m = d.marks m := by
  match tier with
  | .loose => exact ⟨d, rfl, fun _ => rfl⟩
  | .middle => exact ⟨@operand .loose ts f d, rfl, fun _ => rfl⟩
  | .tight => exact ⟨@operand .loose ts f (@operand .middle ts f d), rfl, fun _ => rfl⟩

/-- The tokens of the printed formula derive it as a factor. Its compounds and negations are what
nests in the derivation, and none of its groups is marked. -/
theorem exists_factor_tokens (d : Derivation phrase ts f) :
    ∃ e : Derivation .factor f.tokens f, e.nesting + 1 = f.depth ∧
      ∀ m : Option Char, m ≠ some '(' → e.marks m = [] := by
  induction d with
  | operand d ih => exact ih
  | @compound tier op lexeme ts us f g h d e ihd ihe =>
      obtain ⟨df, hdepthf, hmarksf⟩ := ihd
      obtain ⟨dg, hdepthg, hmarksg⟩ := ihe
      obtain ⟨left, hleft, hmarksl⟩ := exists_of_factor (.expression tier) df
      obtain ⟨right, hright, hmarksr⟩ := exists_of_factor tier.operand dg
      obtain ⟨inner, hinner, hmarks⟩ :=
        exists_of_expression (@compound tier op lexeme _ _ f g h left right)
      refine ⟨@group ['('] [')'] _ _ inner, ?_, fun m hm => ?_⟩
      · show inner.nesting + 1 + 1 = max f.depth g.depth + 1
        rw [hinner]
        show max left.nesting right.nesting + 1 + 1 = _
        omega
      · show inner.marks m ++ recorded m ['('] _ = []
        rw [hmarks, recorded_paren hm, List.append_nil]
        show left.marks m ++ right.marks m = []
        rw [hmarksl, hmarksr, hmarksf m hm, hmarksg m hm]
        rfl
  | literal lexeme => exact ⟨.literal lexeme, rfl, fun _ _ => rfl⟩
  | var lexeme => exact ⟨.var lexeme, rfl, fun _ _ => rfl⟩
  | @negation lexeme ts f d ih =>
      obtain ⟨e, hdepth, hmarks⟩ := ih
      exact ⟨.negation e, congrArg (· + 1) hdepth, hmarks⟩
  | group d ih => exact ih

/-- The tokens of a printed formula that is derived from tokens of a text can all stand by
themselves. -/
theorem plain_tokens {marker : Option Char} {text : Text} (hlex : Token.lex marker text = .ok ts)
    {us : List Token} (hus : us ⊆ ts) (d : Derivation phrase us f) (marker' : Option Char) :
    ∀ t ∈ f.tokens, t.Plain marker' := by
  intro t ht
  rcases d.mem_of_mem_tokens ht with rfl | rfl | ⟨hmem, hopen⟩
  · exact Token.plain_openParen marker'
  · exact Token.plain_closeParen marker'
  · exact Token.plain_of_firstKind (Token.firstKind_of_lex hlex t (hus hmem)) hopen marker'

/-- A formula derived from tokens of a text has a printed form. -/
theorem exists_print {marker : Option Char} {text : Text} (hlex : Token.lex marker text = .ok ts)
    {us : List Token} (hus : us ⊆ ts) (d : Derivation phrase us f) :
    ∃ printed, f.print? = some printed := by
  obtain ⟨printed, hprint, -⟩ := @Formula.lex_print none nofun f (d.plain_tokens hlex hus none)
  exact ⟨printed, hprint⟩

end Derivation

theorem Formula.CompoundsWithin.mono {m n : Nat} {f : Formula} (h : f.CompoundsWithin m)
    (hle : m ≤ n) : f.CompoundsWithin n :=
  fun path op lexeme g k hat => Nat.le_trans (h path op lexeme g k hat) hle

theorem ParseOptions.isMarker_of_marker {o : ParseOptions} {c : Char} (h : o.marker = some c) :
    isMarker c = true := by
  have hmarker := o.isMarker_marker
  rwa [h] at hmarker

namespace Statement

theorem marker_ne_openParen (o : ParseOptions) : o.marker ≠ some '(' :=
  fun h => absurd (ParseOptions.isMarker_of_marker h) (by decide)

/-- Everything in a statement that was read has a printed form. -/
theorem exists_print {o : ParseOptions} {text : Text} {s : Statement} (h : parse o text = .ok s)
    {f : Formula} (hf : f ∈ s.root :: s.subExpressions) : ∃ printed, f.print? = some printed := by
  obtain ⟨ts, hlex, g, d, -, rfl⟩ := parse_eq_ok_iff.mp h
  rcases List.mem_cons.mp hf with rfl | hf
  · exact d.exists_print hlex (List.Subset.refl ts)
  · obtain ⟨us, hus, ⟨e⟩⟩ := d.exists_of_mem_marks hf
    exact e.exists_print hlex hus

/-- The printed root of a statement is read back, under any options with room for it and a marker
that is not the tilde: the same root over the same variables, and nothing is marked. -/
theorem parse_print {o : ParseOptions} {text : Text} {s : Statement} (h : parse o text = .ok s) :
    ∃ printed, s.root.print? = some printed ∧
      ∀ o' : ParseOptions, o'.marker ≠ some '~' → max 1 (s.root.depth - 1) ≤ o'.maxNesting →
        o.maxTreeDepth ≤ o'.maxTreeDepth →
        parse o' printed = .ok ⟨printed, s.root, s.atoms, []⟩ := by
  obtain ⟨ts, hlex, f, d, hfit, rfl⟩ := parse_eq_ok_iff.mp h
  have hplain : ∀ marker, ∀ t ∈ f.tokens, t.Plain marker :=
    fun marker => d.plain_tokens hlex (List.Subset.refl ts) marker
  obtain ⟨printed, hprint, -⟩ := @Formula.lex_print none (by simp) f (hplain none)
  refine ⟨printed, hprint, fun o' hmarker hnesting hdepth => ?_⟩
  obtain ⟨printed', hprint', hlex'⟩ := Formula.lex_print hmarker (hplain o'.marker)
  cases hprint.symm.trans hprint'
  obtain ⟨e, hedepth, hemarks⟩ := d.exists_factor_tokens
  obtain ⟨e', henesting, hemarks'⟩ := e.exists_of_factor (.expression .loose)
  have hatoms : Text.sortedSet (ts.foldl ParseState.learn []) =
      Text.sortedSet (f.tokens.foldl ParseState.learn []) :=
    Text.sortedSet_congr fun x => by
      rw [ParseState.mem_foldl_learn, ParseState.mem_foldl_learn, ← d.mem_names, ← e'.mem_names]
  refine parse_eq_ok_iff.mpr ⟨f.tokens, hlex', f, e', ⟨?_, hfit.2.mono hdepth⟩, ?_⟩
  · show e'.nesting ≤ o'.maxNesting - 0
    have hroom : max 1 (f.depth - 1) ≤ o'.maxNesting := hnesting
    omega
  · rw [hemarks', hemarks _ (marker_ne_openParen o'), hatoms]

theorem parse_print_glued_negations :
    ∃ s, parse {} "~\\not*(p=⇒t)|q".toList = .ok s ∧
      s.root.print? = some "(~\\not (p =⇒ t) | q)".toList ∧ max 1 (s.root.depth - 1) = 4 ∧
      parse { marker := some '|', maxNesting := 4 } "(~\\not (p =⇒ t) | q)".toList =
        .ok ⟨"(~\\not (p =⇒ t) | q)".toList, s.root, s.atoms, []⟩ := by
  let group : Formula := .binary .implies "=⇒".toList (.var ['p'] ['p']) (.literal ['t'])
  let s : Statement := ⟨"~\\not*(p=⇒t)|q".toList,
    .binary .nand ['|'] (.not ['~'] (.not "\\not".toList group)) (.var ['q'] ['q']),
    [['p'], ['q']], [group]⟩
  have hparse : parse {} "~\\not*(p=⇒t)|q".toList = .ok s := by decide +kernel
  have hprinted : s.root.print? = some "(~\\not (p =⇒ t) | q)".toList := by decide
  obtain ⟨printed, hprint, hread⟩ := parse_print hparse
  cases hprinted.symm.trans hprint
  exact ⟨s, hparse, hprinted, rfl, hread { marker := some '|', maxNesting := 4 } (by decide)
    (by decide) (Nat.le_refl _)⟩

end Statement

end Sentential
