/-!
# Classes of characters as ranges of code points

The classes of characters that a text can be asked for are given by the ranges of code points they
cover, in ascending order and apart from each other.
-/

namespace Sentential.Text

/-- Whether one of the ranges, which ascend, contains `n`. The search ends at the first range that
begins above `n`. -/
def inRanges (n : Nat) : List (Nat × Nat) → Bool
  | [] => false
  | (low, high) :: rest => low ≤ n && (n ≤ high || inRanges n rest)

end Sentential.Text
