import Sentential.Double.Basic

/-!
# The fewest digits

A number of double precision is written with the fewest decimal digits that stand for it, and with
those that are nearest to it if there are several of the same number. The digits are found on finer
and finer decimal grids: on each, only the two neighbours of the number can be nearest.
-/

namespace Sentential.Double

/-- A finite number without its sign as a quotient. -/
def quotient : Double → Nat × Nat
  | finite _ mantissa shift => (mantissa * Nat.pow 2 shift, unitsInOne)
  | _ => (0, 1)

/-- A finite number without its sign, divided by a power of ten, as a quotient. -/
def scaled (x : Double) (exponent : Int) : Nat × Nat :=
  (x.quotient.1 * Nat.pow 10 (-exponent).toNat, x.quotient.2 * Nat.pow 10 exponent.toNat)

/-- The number of decimal places before the point that a positive number has. It is negative when
zeros follow the point. -/
def places (x : Double) : Int :=
  let estimate : Int :=
    (Text.ofNat x.quotient.1).length - ((Text.ofNat x.quotient.2).length : Int)
  if (x.scaled estimate).2 ≤ (x.scaled estimate).1 then estimate + 1 else estimate

/-- Whether a decimal stands for a number, apart from the sign. -/
def isReadFrom (x : Double) (d : Decimal) : Bool :=
  d.toDouble x.isNegative == x

/-- The multiple of a power of ten that stands for a number, or the nearer one if there are two. -/
def onGrid? (x : Double) (exponent : Int) : Option Decimal :=
  let (num, den) := x.scaled exponent
  let below : Decimal := ⟨num / den, exponent⟩
  let above : Decimal := ⟨num / den + 1, exponent⟩
  match x.isReadFrom below, x.isReadFrom above with
  | true, true => some ⟨nearestWhole num den, exponent⟩
  | true, false => some below
  | false, true => some above
  | false, false => none

/-- All the digits of a finite number. -/
def allDigits (x : Double) : Decimal :=
  ⟨x.quotient.1 * Nat.pow 5 1074, -1074⟩

/-- The fewest digits that stand for a finite number other than zero. Seventeen always do. -/
def shortest (x : Double) : Decimal :=
  ((List.range 17).findSome? fun n => x.onGrid? (x.places - (n + 1 : Nat))).getD x.allDigits

end Sentential.Double
