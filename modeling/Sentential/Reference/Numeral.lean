import Sentential.Setting

/-!
# Unquoted words with a value

A word that stands alone as an argument, without quotes, can be more than a text: the word for
nothing, one of the words for the truth values, a whole number, or a number of double precision with
a point, with an exponent or by its name. Single underscores may divide the digits of a number.
-/

namespace Sentential

/-- The digits of a text that consists of digits and of single underscores between digits. -/
def groupedDigits? : Text → Option Text
  | [] => none
  | [d] => if d.isDigit then some [d] else none
  | d :: '_' :: rest => if d.isDigit then (groupedDigits? rest).map (d :: ·) else none
  | d :: e :: rest => if d.isDigit then (groupedDigits? (e :: rest)).map (d :: ·) else none

/-- The digits of a whole numeral without a sign, which begins with zero only if it is zero. -/
def wholeDigits? (t : Text) : Option Text :=
  match groupedDigits? t with
  | some ('0' :: _ :: _) => none
  | digits => digits

/-- The number with decimal digits. -/
def ofDigits (digits : Text) : Nat :=
  digits.foldl (fun n d => 10 * n + (d.toNat - '0'.toNat)) 0

/-- The digits of a numeral before its point, and those behind it if there is a point. One of the
two may be missing beside a point. -/
def pointDigits? (t : Text) : Option (Text × Option Text) :=
  match t.span (· != '.') with
  | (whole, '.' :: fraction) =>
    let before := if whole.isEmpty && !fraction.isEmpty then some [] else wholeDigits? whole
    let after := if fraction.isEmpty then some [] else groupedDigits? fraction
    match before, after with
    | some before, some after => some (before, some after)
    | _, _ => none
  | _ => (wholeDigits? t).map (·, none)

/-- The number of a text with a sign in front of it or none, where `read` gives that of the text
behind the sign. -/
def signed? {α : Type} (read : Bool → Text → Option α) : Text → Option α
  | '-' :: rest => read true rest
  | '+' :: rest => read false rest
  | t => read false t

/-- The whole number of digits with a sign. -/
def wholeNumber? : Text → Option Int :=
  signed? fun negative t =>
    (groupedDigits? t).map fun digits =>
      if negative then -(ofDigits digits : Int) else ofDigits digits

/-- The number of double precision with digits before and behind the point and an exponent. -/
def doubleSetting (negative : Bool) (before after : Text) (exponent : Int) : Setting :=
  .decimal (Decimal.toDouble negative ⟨ofDigits (before ++ after), exponent - after.length⟩)

/-- The number of a numeral behind its sign. -/
def unsignedNumber? (negative : Bool) (t : Text) : Option Setting :=
  match t.span fun c => c != 'e' && c != 'E' with
  | (mantissa, _ :: exponent) =>
    match pointDigits? mantissa, wholeNumber? exponent with
    | some (before, after), some n => some (doubleSetting negative before (after.getD []) n)
    | _, _ => none
  | _ =>
    match pointDigits? t with
    | some (before, some after) => some (doubleSetting negative before after 0)
    | some (digits, none) =>
      some (.whole (if negative then -(ofDigits digits : Int) else ofDigits digits))
    | none => none

/-- The number of a name behind its sign. -/
def namedNumber? (negative : Bool) (t : Text) : Option Setting :=
  match String.ofList (t.map Char.toLower) with
  | "inf" => some (.decimal (.infinite negative))
  | "nan" => some (.decimal .notANumber)
  | _ => none

/-- The value of a word that stands alone. -/
def wordValue (t : Text) : Setting :=
  match String.ofList (t.map Char.toLower) with
  | "null" => .absent
  | "true" => .flag true
  | "false" => .flag false
  | _ => ((signed? namedNumber? t).or (signed? unsignedNumber? t)).getD (.text t)

end Sentential
