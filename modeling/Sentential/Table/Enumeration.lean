/-!
# The order of the rows

The rows of a truth table run through all assignments of its variables in a fixed order: the first
variable changes slowest, the last one with every row, and true comes before false. So the values of
row `i` are the binary digits of `i`, the highest first, where zero stands for true.
-/

namespace Sentential.Table

/-- The number of variables up to which the assignments can be enumerated. -/
def maxVariables : Nat := 62

/-- The number of rows over `count` variables. -/
def rowCount (count : Nat) : Nat :=
  Nat.pow 2 count

/-- The values of `count` variables in the row with index `i`. -/
def rowBits (count i : Nat) : List Bool :=
  (List.range count).map fun j => !i.testBit (count - 1 - j)

/-- The values of `count` variables in all rows, in order. -/
def allRows (count : Nat) : List (List Bool) :=
  (List.range (rowCount count)).map (rowBits count)

/-- The values of a number of variables in all rows, if there are not too many of them. -/
def allRows? (count : Int) : Option (List (List Bool)) :=
  if 0 ≤ count ∧ count ≤ maxVariables then some (allRows count.toNat) else none

end Sentential.Table
