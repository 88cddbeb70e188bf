import Sentential.Token.Basic
import Sentential.Text.Alphanumeric

/-!
# Spellings

How the kinds of token are written. Every kind but the variables has a fixed list of spellings, the
opening parenthesis one more where a marker is agreed on; a variable is a single word character. A
spelling counts only where it does not run on: its last character and the next one of the text must
not both belong to a word.
-/

namespace Sentential

namespace Kind

/-- The spellings with which a word may begin so that its first token is of this kind, in order of
preference. Only those of a variable depend on the word. -/
def spellings (marker : Option Char) (word : Text) : Kind → List Text
  | negation => ["¬", "!", "~", "lnot", "not", "\\lnot", "\\not"].map String.toList
  | connective .and => ["∧", "&&", "&", "land", "and", "\\land", "\\and"].map String.toList
  | connective .or => ["∨", "||", "lor", "or", "\\lor", "\\or"].map String.toList
  | connective .xor => ["⊕", "lxor", "xor", "\\lxor", "\\xor", "\\oplus"].map String.toList
  | connective .nand => ["sh", "lnand", "nand", "\\lnand", "\\nand", "|"].map String.toList
  | connective .implies => ["=⇒", "⇒", "->", "=>", "implies", "\\implies"].map String.toList
  | connective .iff => ["⇔", "<->", "<=>", "liff", "iff", "\\liff", "\\iff"].map String.toList
  | openParen =>
    match marker with
    | some m => [[m, '('], ['(']]
    | none => [['(']]
  | closeParen => [[')']]
  | literal =>
    ["true", "false", "t", "T", "f", "F", "0", "1", "y", "Y", "n", "N"].map String.toList
  | var => (word.take 1).filterMap fun c => if Text.isWordChar c then some [c] else none

end Kind

namespace Text

/-- Whether `rest` may follow `lexeme` without running on: not both neighbours belong to a
word. -/
def endsBefore (lexeme rest : Text) : Bool :=
  match lexeme.getLast?, rest.head? with
  | some a, some b => !(isWordChar a && isWordChar b)
  | _, _ => true

/-- Whether `lexeme`, which is not empty, begins `word` and does not run on in it. -/
def begins (lexeme word : Text) : Bool :=
  !lexeme.isEmpty && lexeme.isPrefixOf word && endsBefore lexeme (word.drop lexeme.length)

theorem length_of_begins {lexeme word : Text} (h : begins lexeme word = true) :
    0 < lexeme.length ∧ lexeme.length ≤ word.length := by
  simp only [begins, Bool.and_eq_true, Bool.not_eq_true', List.isEmpty_eq_false_iff] at h
  exact ⟨List.length_pos_iff.2 h.1.1, (List.isPrefixOf_iff_prefix.1 h.1.2).length_le⟩

end Text

end Sentential
