import Sentential.Text.Ranges
import Sentential.Text.Basic

/-!
# Blanks and words

The blanks are the characters that separate words: the spaces and line ends of the common scripts
and the four separators of the control range. A word is a longest run of other characters.
-/

namespace Sentential.Text

/-- The code points of the blanks. -/
def blankRanges : List (Nat × Nat) :=
  [(0x9, 0xd), (0x1c, 0x20), (0x85, 0x85), (0xa0, 0xa0), (0x1680, 0x1680), (0x2000, 0x200a),
    (0x2028, 0x2029), (0x202f, 0x202f), (0x205f, 0x205f), (0x3000, 0x3000)]

/-- Whether a character separates words. -/
def isBlank (c : Char) : Bool :=
  inRanges c.toNat blankRanges

/-- The words of a text in their order: what remains between the blanks, without the empty
pieces. -/
def words : Text → List Text
  | [] => []
  | c :: rest =>
    if isBlank c then words rest
    else
      match rest.head?, words rest with
      | some d, w :: ws => if isBlank d then [c] :: w :: ws else (c :: w) :: ws
      | _, ws => [c] :: ws

end Sentential.Text
