import ServiceScaffold.Json.Basic
import ServiceScaffold.Number.Double
import ServiceScaffold.Text.Digit

/-!
# Numbers with a fraction or an exponent

Such a number is read as digits and a power of ten. Of the digits only as many count as fit into 64
bits; a later digit before the decimal point still moves the power. Its value in double precision
is the digits times the power, where both are rounded before they are multiplied or divided.
-/

namespace ServiceScaffold.Json.Decimal

/-- The first number that takes more than 64 bits. -/
def wordLimit : Nat := Nat.pow 2 64

/-- The value with more digits behind it, as long as it fits into 64 bits, and how many digits were
left out. -/
def absorb (value : Nat) : Text → Nat × Nat
  | [] => (value, 0)
  | c :: rest =>
    if 10 * value + Text.digitValue c < wordLimit then absorb (10 * value + Text.digitValue c) rest
    else (value, rest.length + 1)

/-- The digits and the power of ten of a number, from its digits before and after the decimal point
and its exponent. -/
def ofParts (whole fraction : Text) (exponent : Int) : Nat × Int :=
  let (front, skipped) := absorb 0 whole
  let (digits, ignored) := absorb front fraction
  (digits, exponent + skipped - (fraction.length - ignored : Nat))

/-- The greatest power of ten in double precision. -/
def greatestPower : Nat := 308

/-- A power of ten in double precision. -/
def power? (n : Nat) : Option Double :=
  if n ≤ greatestPower then Double.ofRatio? (Nat.pow 10 n) 1 else none

/-- The value divided by a power of ten; a power beyond the greatest is divided by in parts, of
which the third leaves nothing. -/
def scaleDown (value : Double) (n : Nat) : Option Double := do
  if n ≤ greatestPower then Double.div? value (← power? n)
  else
    let value ← Double.div? value (← power? greatestPower)
    if n ≤ 2 * greatestPower then Double.div? value (← power? (n - greatestPower))
    else Double.ofRatio? 0 1

/-- The value of `digits * 10 ^ exponent` in double precision; none if it is beyond the greatest. -/
def value? (digits : Nat) (exponent : Int) : Option Double := do
  let front ← Double.ofRatio? digits 1
  if front.mantissa = 0 then some front
  else
    match exponent with
    | .ofNat n => Double.mul? front (← power? n)
    | .negSucc n => scaleDown front (n + 1)

end ServiceScaffold.Json.Decimal
