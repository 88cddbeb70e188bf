import Sentential.Double.Shortest

/-!
# How numbers are written

A number is written with the fewest digits that stand for it. It is written in positions if its
first digit is at most four places behind the point or sixteen before it, and there is always a
digit on both sides of the point. Any other number is written with an exponent, which has a sign and
at least two digits.
-/

namespace Sentential.Double

/-- Digits in positions, where the point stands behind the given number of them. -/
def positional (digits : Text) (point : Int) : Text :=
  if point ≤ 0 then '0' :: '.' :: (List.replicate (-point).toNat '0' ++ digits)
  else
    let whole := digits.take point.toNat
    let fraction := digits.drop point.toNat
    whole ++ List.replicate (point.toNat - whole.length) '0' ++
      '.' :: (if fraction.isEmpty then ['0'] else fraction)

/-- Digits with an exponent, which is that of the first digit. -/
def withExponent (digits : Text) (exponent : Int) : Text :=
  let size := Text.ofNat exponent.natAbs
  digits.take 1 ++ (if digits.length ≤ 1 then [] else '.' :: digits.drop 1) ++
    'e' :: (if exponent < 0 then '-' else '+') ::
      (List.replicate (2 - size.length) '0' ++ size)

/-- A finite number without its sign. -/
def unsigned (x : Double) : Text :=
  if x.isZero then "0.0".toList
  else
    let d := x.shortest
    let digits := Text.ofNat d.digits
    let point := d.exponent + digits.length
    let kept := (digits.reverse.dropWhile (· == '0')).reverse
    if -4 < point && point ≤ 16 then positional kept point else withExponent kept (point - 1)

/-- A number as messages show it. -/
def shown (x : Double) : Text :=
  (if x.isNegative then ['-'] else []) ++
    match x with
    | finite _ _ _ => x.unsigned
    | infinite _ => "inf".toList
    | notANumber => "nan".toList

end Sentential.Double
