/-!
# Texts

A text is the list of its characters: its length, its cuts and its order count characters and
nothing smaller. Beside the numerals the module holds the order of texts, by the code point of the
first character that differs, the sorted lists without repetition that this order gives, and the
pieces of a text between separators.
-/

namespace Sentential

/-- A text, as the list of its characters. -/
abbrev Text := List Char

namespace Text

/-- The decimal digits of a natural number. -/
def ofNat (n : Nat) : Text :=
  Nat.toDigits 10 n

/-- The decimal digits of an integer, behind a minus sign when it is negative. -/
def ofInt : Int → Text
  | .ofNat n => ofNat n
  | .negSucc n => '-' :: ofNat (n + 1)

/-- Whether `a` comes strictly before `b`: the first place where they differ decides by code
point, and a text comes before those that continue it. -/
def precedes : Text → Text → Bool
  | _, [] => false
  | [], _ :: _ => true
  | a :: as, b :: bs => a.toNat < b.toNat || (a == b && precedes as bs)

/-- Puts a text into an ascending list, unless the list has it already. -/
def insertSorted (a : Text) : List Text → List Text
  | [] => [a]
  | b :: rest =>
    if precedes a b then a :: b :: rest
    else if a = b then b :: rest
    else b :: insertSorted a rest

/-- The texts of a list in ascending order, each of them once. -/
def sortedSet (texts : List Text) : List Text :=
  texts.foldr insertSorted []

/-- What stands before, between and behind the characters that separate. There is always one piece
more than there are separators. -/
def pieces (separates : Char → Bool) : Text → List Text
  | [] => [[]]
  | c :: rest =>
    match pieces separates rest with
    | [] => [[]]
    | piece :: more => if separates c then [] :: piece :: more else (c :: piece) :: more

/-- Lines as one text, each of them ended. -/
def unlines (lines : List Text) : Text :=
  lines.flatMap (· ++ ['\n'])

end Text

end Sentential
