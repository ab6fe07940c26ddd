import ServiceScaffold.Number.Double
import ServiceScaffold.Text.Digit

/-!
# Beyond double precision

Which decimal numbers round to more than the greatest value in double precision. This is decided
exactly; only numbers whose exponents leave no doubt are not multiplied out.
-/

namespace ServiceScaffold.Double

namespace Decimal

/-- From here on a decimal exponent puts every positive integer beyond double precision. -/
def hugeExponent : Int := 400

/-- The numerator and the denominator of a number. -/
def ratio (decimal : Decimal) : Nat × Nat := scale decimal.digits 10 decimal.exponent

/-- Rounds the number to more than the greatest value? One below one does not. -/
def overflows (decimal : Decimal) : Bool :=
  if decimal.digits = 0 then false
  else if hugeExponent < decimal.exponent then true
  else if decimal.exponent + (Nat.toDigits 10 decimal.digits).length ≤ 0 then false
  else (ofRatio? decimal.ratio.1 decimal.ratio.2).isNone

/-- The number that a text spells: digits, of which those behind a point count as a fraction, and
an exponent. A sign and characters between the digits do not count. -/
def ofText (text : Text) : Decimal :=
  let isMark (c : Char) : Bool := c = 'e' || c = 'E'
  let front := text.takeWhile fun c => !isMark c
  let back := text.dropWhile fun c => !isMark c
  let exponent : Int := Text.numeral (back.filter Char.isDigit)
  let fraction := (front.dropWhile (· ≠ '.')).filter Char.isDigit
  ⟨Text.numeral (front.filter Char.isDigit),
    (if back.contains '-' then -exponent else exponent) - fraction.length⟩

end Decimal

end ServiceScaffold.Double
