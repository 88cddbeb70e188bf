import Sentential.Token.Spelling
import Sentential.Text.Blank
import Sentential.CompileError

/-!
# From a text to its tokens

Blanks separate words, and so do parentheses and the two negation signs that need no blank around
them; an opening parenthesis stays attached to what stands before it, because that may be its
marker. A word that is a lexeme as a whole is one token. Any other word gives up the lexeme it
begins with, and the rest is read as a word of its own, so that operands and signs may be written
without blanks between them.
-/

namespace Sentential

namespace Text

/-- Puts blanks around the characters that always end a word. -/
def spaced (t : Text) : Text :=
  t.flatMap fun c =>
    if c = '(' then ['(', ' ']
    else if c = ')' then [' ', ')']
    else if c = '!' || c = '¬' then [' ', c, ' ']
    else [c]

end Text

namespace Token

/-- The words of an expression, in which the tokens are looked for one word at a time. -/
def wordsOf (text : Text) : List Text :=
  Text.words (Text.spaced text)

/-- The first kind of which the word as a whole is a lexeme. -/
def wholeKind? (marker : Option Char) (word : Text) : Option Kind :=
  Kind.all.find? fun k => (k.spellings marker word).contains word

/-- The token of one kind with which the word begins. -/
def headOfKind? (marker : Option Char) (word : Text) (k : Kind) : Option Token :=
  ((k.spellings marker word).find? (Text.begins · word)).map (Token.mk k)

/-- The token with which the word begins: the first kind that has one decides. -/
def head? (marker : Option Char) (word : Text) : Option Token :=
  Kind.all.findSome? (headOfKind? marker word)

theorem begins_of_head? {marker : Option Char} {word : Text} {t : Token}
    (h : head? marker word = some t) : Text.begins t.lexeme word = true := by
  obtain ⟨k, _, hk⟩ := List.exists_of_findSome?_eq_some h
  obtain ⟨lexeme, hl, rfl⟩ := Option.map_eq_some_iff.1 hk
  simpa using List.find?_some hl

/-- The tokens of one word. -/
def lexWord (marker : Option Char) (word : Text) : Except CompileError (List Token) :=
  if word = [] then .ok []
  else
    match wholeKind? marker word with
    | some k => .ok [⟨k, word⟩]
    | none =>
      match _h : head? marker word with
      | none => .error (.unknownToken word)
      | some t =>
        match lexWord marker (word.drop t.lexeme.length) with
        | .error e => .error e
        | .ok ts => .ok (t :: ts)
termination_by word.length
decreasing_by
  have := Text.length_of_begins (begins_of_head? ‹_›)
  simp only [List.length_drop]
  omega

/-- The tokens of several words, one word after another. -/
def lexWords (marker : Option Char) : List Text → Except CompileError (List Token)
  | [] => .ok []
  | word :: rest =>
    match lexWord marker word with
    | .error e => .error e
    | .ok ts =>
      match lexWords marker rest with
      | .error e => .error e
      | .ok us => .ok (ts ++ us)

/-- The tokens of an expression, where `marker` before an opening parenthesis belongs to it. -/
def lex (marker : Option Char) (text : Text) : Except CompileError (List Token) :=
  lexWords marker (wordsOf text)

end Token

end Sentential
