/-!
# Double precision

The non-negative numbers of binary double precision, as a mantissa and a power of two, in exact
arithmetic. `ofRatio?` rounds a ratio to the nearest of them, a half to the even mantissa;
`shortest` finds the decimal number with the fewest digits that rounds back to a given one, and of
several such the nearest.
-/

namespace ServiceScaffold

/-- The number `mantissa * 2 ^ exponent`. -/
structure Double where
  mantissa : Nat
  exponent : Int
  deriving DecidableEq, Repr, Inhabited

namespace Double

/-- The least exponent. -/
def leastExponent : Int := -1074

/-- The greatest exponent. -/
def greatestExponent : Int := 971

/-- The first mantissa that takes more than 53 bits. -/
def mantissaLimit : Nat := Nat.pow 2 53

/-- The first mantissa that takes 53 bits. -/
def leastNormal : Nat := Nat.pow 2 52

/-- The numerator and the denominator of a number scaled by a power of a base. -/
def scale (value base : Nat) (power : Int) : Nat × Nat :=
  match power with
  | .ofNat n => (value * Nat.pow base n, 1)
  | .negSucc n => (value, Nat.pow base (n + 1))

/-- The quotient rounded to the nearest integer, a half to the even one. -/
def roundDiv (numerator denominator : Nat) : Nat :=
  let quotient := numerator / denominator
  let twice := 2 * (numerator % denominator)
  if twice > denominator || (twice = denominator && quotient % 2 = 1) then quotient + 1
  else quotient

/-- The mantissa of a ratio for one exponent, rounded. -/
def mantissaAt (numerator denominator : Nat) (exponent : Int) : Nat :=
  let scaled := scale 1 2 (-exponent)
  roundDiv (numerator * scaled.1) (denominator * scaled.2)

/-- The nearest number to a ratio; none if that is beyond the greatest. -/
def ofRatio? (numerator denominator : Nat) : Option Double :=
  if numerator = 0 then some ⟨0, leastExponent⟩
  else
    let guess := (Nat.log2 numerator : Int) - Nat.log2 denominator - 53
    let fit := (List.range 3).map fun (n : Nat) => max leastExponent (guess + (n : Int))
    match fit.find? fun exponent => mantissaAt numerator denominator exponent ≤ mantissaLimit with
    | none => none
    | some exponent =>
      let mantissa := mantissaAt numerator denominator exponent
      let rounded :=
        if mantissa = mantissaLimit then Double.mk leastNormal (exponent + 1)
        else Double.mk mantissa exponent
      if rounded.exponent > greatestExponent then none else some rounded

/-- The numerator and the denominator of a number. -/
def ratio (value : Double) : Nat × Nat := scale value.mantissa 2 value.exponent

/-- The product, rounded. -/
def mul? (a b : Double) : Option Double :=
  ofRatio? (a.ratio.1 * b.ratio.1) (a.ratio.2 * b.ratio.2)

/-- The quotient, rounded; a quotient by zero has no value here. -/
def div? (a b : Double) : Option Double :=
  if b.mantissa = 0 then none else ofRatio? (a.ratio.1 * b.ratio.2) (a.ratio.2 * b.ratio.1)

/-- A decimal number: `digits * 10 ^ exponent`. -/
structure Decimal where
  digits : Nat
  exponent : Int
  deriving DecidableEq, Repr, Inhabited

/-- Is the decimal number at most `units * 2 ^ power`? -/
def Decimal.atMost (decimal : Decimal) (units : Nat) (power : Int) : Bool :=
  let left := scale decimal.digits 10 decimal.exponent
  let right := scale units 2 power
  left.1 * right.2 ≤ right.1 * left.2

/-- Is the decimal number at least `units * 2 ^ power`? -/
def Decimal.atLeast (decimal : Decimal) (units : Nat) (power : Int) : Bool :=
  let left := scale decimal.digits 10 decimal.exponent
  let right := scale units 2 power
  right.1 * left.2 ≤ left.1 * right.2

/-- The halfway points below and above a value, in quarters of its last place. Below a power of two
the values lie twice as close. -/
def halfways (value : Double) : Nat × Nat :=
  let narrow : Bool := value.mantissa = leastNormal && value.exponent > leastExponent
  let gap := if narrow then 1 else 2
  (4 * value.mantissa - gap, 4 * value.mantissa + 2)

/-- Rounds the decimal number to this value? What lies between the two halfway points does, the
halfway points themselves do if the mantissa is even. -/
def roundsTo (value : Double) (decimal : Decimal) : Bool :=
  let power := value.exponent - 2
  let (lower, upper) := halfways value
  if value.mantissa % 2 = 0 then decimal.atLeast lower power && decimal.atMost upper power
  else !decimal.atMost lower power && !decimal.atLeast upper power

/-- How many digits stand before the decimal point of a positive ratio; not positive if the first
digit other than zero stands after it. -/
def pointPosition (numerator denominator : Nat) : Int :=
  if numerator ≥ denominator then ((Nat.toDigits 10 (numerator / denominator)).length : Int)
  else
    let zeros := (List.range 400).find? fun n => numerator * Nat.pow 10 (n + 1) ≥ denominator
    .neg (zeros.getD 400 : Nat)

/-- The two neighbours of a value among the decimal numbers with so many digits, the nearer one
first; of two that are equally near, the one whose last digit is even. -/
def neighbours (value : Double) (digits : Nat) : List Decimal :=
  let (numerator, denominator) := value.ratio
  let exponent := pointPosition numerator denominator - digits
  let scaled := scale 1 10 (-exponent)
  let top := numerator * scaled.1
  let bottom := denominator * scaled.2
  let below := top / bottom
  let twice := 2 * (top % bottom)
  if twice < bottom || (twice = bottom && below % 2 = 0) then
    [⟨below, exponent⟩, ⟨below + 1, exponent⟩]
  else [⟨below + 1, exponent⟩, ⟨below, exponent⟩]

/-- The same decimal number without zeros at its end, at most so many. -/
def Decimal.trimmed : Nat → Decimal → Decimal
  | 0, decimal => decimal
  | most + 1, decimal =>
    if decimal.digits % 10 = 0 && decimal.digits ≠ 0 then
      trimmed most ⟨decimal.digits / 10, decimal.exponent + 1⟩
    else decimal

/-- The decimal number with the fewest digits that rounds to the value. -/
def shortest (value : Double) : Decimal :=
  let candidates := (List.range 17).flatMap fun n => neighbours value (n + 1)
  Decimal.trimmed 17 ((candidates.find? (roundsTo value)).getD ⟨0, 0⟩)

end Double

end ServiceScaffold
