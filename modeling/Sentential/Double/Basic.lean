import Sentential.Text.Basic

/-!
# Numbers of double precision

A number of double precision has a mantissa of at most 53 binary digits. It is counted in the
smallest positive number, two to the power of -1074: a finite number is its mantissa shifted to the
left by at most 2045 places. A decimal stands for the nearest of these numbers, and for the one with
the even mantissa when two are equally near. `Decimal.toDouble` finds it exactly.
-/

namespace Sentential

/-- A number of double precision. -/
inductive Double where
  /-- The mantissa shifted to the left, in units of the smallest positive number. -/
  | finite (negative : Bool) (mantissa shift : Nat)
  | infinite (negative : Bool)
  | notANumber
  deriving DecidableEq, Repr

/-- The product of digits, read as a whole number, and a power of ten. -/
structure Decimal where
  digits : Nat
  exponent : Int
  deriving DecidableEq, Repr

/-- The whole number that is nearest to a quotient, or the even one if two are equally near. -/
def nearestWhole (num den : Nat) : Nat :=
  if 2 * (num % den) < den || (2 * (num % den) == den && num / den % 2 == 0) then num / den
  else num / den + 1

namespace Double

/-- The number of binary places of a mantissa. -/
def precision : Nat := 53

/-- The largest shift of a mantissa. -/
def maxShift : Nat := 2045

/-- The number of units in one. -/
def unitsInOne : Nat :=
  Nat.pow 2 1074

/-- The number with a mantissa, which may be rounded up to one place too much. Where its shift would
be too large, infinity stands for it. -/
def normal (negative : Bool) (mantissa shift : Nat) : Double :=
  let full := mantissa == Nat.pow 2 precision
  let mantissa := if full then mantissa / 2 else mantissa
  let shift := if full then shift + 1 else shift
  if shift ≤ maxShift then .finite negative mantissa shift else .infinite negative

/-- The number that is nearest to a quotient. -/
def ofQuotient (negative : Bool) (num den : Nat) : Double :=
  let units := num * unitsInOne
  let shift := (units / den).log2 + 1 - precision
  normal negative (nearestWhole units (den * Nat.pow 2 shift)) shift

/-- Whether a number is zero, with either sign. -/
def isZero : Double → Bool
  | finite _ mantissa _ => mantissa == 0
  | _ => false

/-- Whether a number has the negative sign. -/
def isNegative : Double → Bool
  | finite negative _ _ => negative
  | infinite negative => negative
  | notANumber => false

/-- A whole number above all finite ones. -/
def beyond : Nat :=
  Nat.pow 2 1024

/-- The greatest whole number that a number is not below. Where there is none, or where nothing can
be said, a number above all finite ones stands for it. -/
def floor : Double → Int
  | finite negative mantissa shift =>
    let units : Int := mantissa * Nat.pow 2 shift
    (if negative then -units else units) / unitsInOne
  | infinite true => -beyond
  | infinite false | notANumber => beyond

end Double

namespace Decimal

/-- More decimal places than any finite number has before the point, or has zeros behind it. -/
def farPlaces : Int := 400

/-- A decimal as a quotient. -/
def quotient (d : Decimal) : Nat × Nat :=
  (d.digits * Nat.pow 10 d.exponent.toNat, Nat.pow 10 (-d.exponent).toNat)

/-- The number of double precision that a decimal with a sign stands for. Decimals far out of range
are told by the place of their first digit. -/
def toDouble (negative : Bool) (d : Decimal) : Double :=
  let places := (Text.ofNat d.digits).length + d.exponent
  if d.digits = 0 || places < -farPlaces then .finite negative 0 0
  else if farPlaces < places then .infinite negative
  else .ofQuotient negative d.quotient.1 d.quotient.2

end Decimal

end Sentential
