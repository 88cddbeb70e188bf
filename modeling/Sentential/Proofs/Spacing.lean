import Mathlib.Control.Monad.Basic
import Sentential.Proofs.Marking

/-!
# Blanks do not count

Between its blanks a text is cut into lexemes and nothing else is done to it. The separators put
blanks into the text, the words leave them out again, and the longest lexemes of a word make up the
word. So what the lexer finds, written one after another, is the text without its blanks.

The other direction says that nothing is lost by the cutting. A lexeme that was found inside of a
word, before whatever was glued to it, is a word of its own when it stands between blanks, and it is
read as what it was, since the first kind of which it is a lexeme has nothing to do with its
neighbours. For this a marker must be one that can stay attached to its parenthesis.
-/

namespace Sentential

namespace Text

variable {c : Char}

theorem spaced_of_isBlank (h : isBlank c = true) : spaced [c] = [c] := by
  refine spaced_single (Bool.eq_false_iff.mpr fun hmem => ?_)
  have hall : ("()!¬".toList.all fun d => !isBlank d) = true := by decide
  simpa [h] using List.all_eq_true.mp hall c (List.contains_iff_mem.mp hmem)

theorem filter_spaced (t : Text) :
    (spaced t).filter (fun c => !isBlank c) = t.filter fun c => !isBlank c := by
  induction t with
  | nil => rfl
  | cons c t ih =>
      have hsingle : (spaced [c]).filter (fun c => !isBlank c) = [c].filter fun c => !isBlank c := by
        by_cases hc : "()!¬".toList.contains c = true
        · have hall : ("()!¬".toList.all fun d =>
              (spaced [d]).filter (fun c => !isBlank c) == [d].filter fun c => !isBlank c) = true := by
            decide
          exact beq_iff_eq.mp (List.all_eq_true.mp hall c (List.contains_iff_mem.mp hc))
        · rw [spaced_single (Bool.eq_false_iff.mpr hc)]
      rw [spaced_cons, List.filter_append, ih, hsingle, ← List.filter_append]
      rfl

/-- The words hold all that is no blank. -/
theorem flatten_words (t : Text) : (words t).flatten = t.filter fun c => !isBlank c := by
  induction t with
  | nil => rfl
  | cons c t ih =>
      by_cases hc : isBlank c = true
      · rw [words_of_isBlank hc, ih, List.filter_cons_of_neg (by simp [hc])]
      · rw [Bool.not_eq_true] at hc
        rw [List.filter_cons_of_pos (by simp [hc]), ← ih]
        rcases words_cons_cases hc t with halone | ⟨w, ws, hw, hglued⟩
        · rw [halone]
          rfl
        · rw [hglued, hw]
          rfl

end Text

namespace Token

variable {marker : Option Char} {text : Text} {ts : List Token}

/-! ## Nothing is lost -/

theorem flatten_wordsOf (text : Text) :
    (wordsOf text).flatten = text.filter fun c => !Text.isBlank c := by
  rw [wordsOf, Text.flatten_words, Text.filter_spaced]

theorem flatMap_lexeme_of_munches {w r : Text} (h : Munches marker w ts r) :
    ts.flatMap lexeme ++ r = w := by
  induction h with
  | stop r => rfl
  | step hlongest hkind h ih => rw [List.flatMap_cons, List.append_assoc, ih]

theorem flatMap_lexeme_of_words {ws : List Text} {tss : List (List Token)}
    (h : List.Forall₂ (Munches marker · · []) ws tss) :
    tss.flatten.flatMap lexeme = ws.flatten := by
  induction h with
  | nil => rfl
  | cons hw hws ih =>
      rw [List.flatten_cons, List.flatMap_append, ih, List.flatten_cons,
        ← flatMap_lexeme_of_munches hw, List.append_nil]

theorem flatMap_lexeme_of_lex (h : lex marker text = .ok ts) :
    ts.flatMap lexeme = text.filter fun c => !Text.isBlank c := by
  obtain ⟨tss, hwords, rfl⟩ :=
    (lexWords_eq_ok_iff fun w hw => opensLast_of_mem_wordsOf hw).mp h
  rw [flatMap_lexeme_of_words hwords, flatten_wordsOf]

/-! ## Tokens by themselves -/

theorem wordsOf_append_of_isBlank {c : Char} (hc : Text.isBlank c = true) (s t : Text) :
    wordsOf (s ++ c :: t) = wordsOf s ++ wordsOf t := by
  rw [wordsOf, Text.spaced_append, Text.spaced_cons, Text.spaced_of_isBlank hc]
  exact Text.words_append_blank hc (Text.spaced s) (Text.spaced t)

/-- A marker stays attached to its parenthesis, and nothing else does. -/
theorem wordsOf_marked {c : Char} (hc : isMarker c = true) (t : Text) :
    wordsOf (c :: '(' :: t) = [c, '('] :: wordsOf t := by
  obtain ⟨hblank, hseparator⟩ : Text.isBlank c = false ∧ "()!¬".toList.contains c = false := by
    simpa [isMarker] using hc
  have hspaced : Text.spaced (c :: '(' :: t) = [c, '('] ++ ' ' :: Text.spaced t := by
    rw [Text.spaced_cons, Text.spaced_single hseparator]
    rfl
  have hword : Text.words [c, '('] = [[c, '(']] :=
    Text.words_cons_cons hblank (by decide) (Text.words_singleton (by decide))
  rw [wordsOf, hspaced, Text.words_append_blank (by decide), hword]
  rfl

theorem plain_marked {c : Char} (hc : isMarker c = true) :
    Plain (some c) ⟨.openParen, [c, '(']⟩ :=
  ⟨wordsOf_marked hc [], wholeKind?_eq_some_iff.mpr (firstKind_marked c)⟩

/-- Every token that is found can stand by itself. -/
theorem plain_of_lex (hmarker : marker.all isMarker = true) (h : lex marker text = .ok ts) :
    ∀ t ∈ ts, t.Plain marker := by
  rintro ⟨k, v⟩ ht
  have hkind : FirstKind marker v k := firstKind_of_lex h _ ht
  by_cases hopen : k = .openParen
  · subst hopen
    rcases mem_spellings_openParen.mp hkind.1 with rfl | ⟨c, rfl, rfl⟩
    · exact plain_openParen marker
    · exact plain_marked hmarker
  · exact plain_of_firstKind hkind hopen marker

/-! ## Writing tokens down with any blanks -/

/-- The text is the lexemes of the tokens in their order, with blanks between any two of them, and
with further blanks anywhere but inside of lexemes. -/
inductive Apart : List Token → Text → Prop where
  | nil : Apart [] []
  | blank {ts : List Token} {c : Char} {s : Text} (hc : Text.isBlank c = true) (h : Apart ts s) :
      Apart ts (c :: s)
  | token {ts : List Token} {s : Text} (t : Token) (hs : s.head?.all Text.isBlank = true)
      (h : Apart ts s) : Apart (t :: ts) (t.lexeme ++ s)

theorem wordsOf_lexeme_append {t : Token} {s : Text} (ht : wordsOf t.lexeme = [t.lexeme])
    (hs : s.head?.all Text.isBlank = true) : wordsOf (t.lexeme ++ s) = t.lexeme :: wordsOf s := by
  cases s with
  | nil => rw [List.append_nil, ht]; rfl
  | cons c s =>
      rw [wordsOf_append_of_isBlank hs, ht, ← List.nil_append (c :: s), wordsOf_append_of_isBlank hs]
      rfl

/-- Tokens that can stand by themselves are read back from among any blanks. -/
theorem lex_of_apart (hplain : ∀ t ∈ ts, t.Plain marker) (h : Apart ts text) :
    lex marker text = .ok ts := by
  induction h with
  | nil => rfl
  | @blank ts c s hc h ih =>
      have hwords : wordsOf (c :: s) = wordsOf s := wordsOf_append_of_isBlank hc [] s
      rw [lex, hwords]
      exact ih hplain
  | token t hs h ih =>
      obtain ⟨ht, hts⟩ := List.forall_mem_cons.mp hplain
      exact lex_of_wordsOf_eq_cons (wordsOf_lexeme_append ht.1 hs) ht (ih hts)

/-- The lexemes that are found make up the text without its blanks. Written down with any blanks
between them they are found again, with the same kinds. -/
theorem lex_respaced (hmarker : marker.all isMarker = true) (h : lex marker text = .ok ts) :
    ts.flatMap lexeme = (text.filter fun c => !Text.isBlank c) ∧
      ∀ text', Apart ts text' → lex marker text' = .ok ts :=
  ⟨flatMap_lexeme_of_lex h, fun _ htext => lex_of_apart (plain_of_lex hmarker h) htext⟩

theorem lex_respaced_glued_signs :
    let ts : List Token := [⟨.negation, ['~']⟩, ⟨.var, ['p']⟩, ⟨.connective .and, ['&', '&']⟩,
      ⟨.openParen, ['&', '(']⟩, ⟨.var, ['q']⟩, ⟨.closeParen, [')']⟩]
    lex (some '&') "~p&&&( q)".toList = .ok ts ∧
      ts.flatMap lexeme = "~p&&&(q)".toList ∧
      lex (some '&') "\n~ p\t&&  &(\u2003q )".toList = .ok ts := by
  intro ts
  have hlex : lex (some '&') "~p&&&( q)".toList = .ok ts := by decide +kernel
  obtain ⟨hlexemes, hspaced⟩ := lex_respaced (by decide) hlex
  exact ⟨hlex, hlexemes, hspaced _ <|
    .blank (by decide) <| .token _ (by decide) <| .blank (by decide) <| .token _ (by decide) <|
    .blank (by decide) <| .token _ (by decide) <| .blank (by decide) <| .blank (by decide) <|
    .token _ (by decide) <| .blank (by decide) <| .token _ (by decide) <| .blank (by decide) <|
    .token _ (by decide) .nil⟩

end Token

end Sentential
