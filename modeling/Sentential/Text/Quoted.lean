import Sentential.Text.Printable
import Sentential.Text.Basic

/-!
# Quoted texts

A quoted text stands in messages so that its ends and its unprintable characters can be seen. It is
written between single quotes, or between double quotes when it contains single ones and no double
ones. The quote in use and the backslash are escaped, and a character without a printed form is
written by a short escape or by its code point in two, four or eight hexadecimal digits.
-/

namespace Sentential.Text

/-- The lowest `width` hexadecimal digits of a code point, in lower case. -/
def hexDigits : Nat → Nat → Text
  | 0, _ => []
  | width + 1, n => hexDigits width (n / 16) ++ [Nat.digitChar (n % 16)]

/-- The quote a text is written between. -/
def quoteFor (t : Text) : Char :=
  if t.contains '\'' && !t.contains '"' then '"' else '\''

/-- How a character is written between two quotes `quote`. -/
def escapeChar (quote c : Char) : Text :=
  if c = quote || c = '\\' then ['\\', c]
  else if c = '\n' then ['\\', 'n']
  else if c = '\r' then ['\\', 'r']
  else if c = '\t' then ['\\', 't']
  else if isPrintable c then [c]
  else if c.toNat < 0x100 then '\\' :: 'x' :: hexDigits 2 c.toNat
  else if c.toNat < 0x10000 then '\\' :: 'u' :: hexDigits 4 c.toNat
  else '\\' :: 'U' :: hexDigits 8 c.toNat

/-- The text in quotes. -/
def quoted (t : Text) : Text :=
  quoteFor t :: t.flatMap (escapeChar (quoteFor t)) ++ [quoteFor t]

end Sentential.Text
