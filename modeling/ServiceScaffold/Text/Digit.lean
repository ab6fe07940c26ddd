import ServiceScaffold.Text.Basic

/-!
# Digits

The values of digits, and the numbers that digits stand for.
-/

namespace ServiceScaffold.Text

/-- The value of a decimal digit. -/
def digitValue (c : Char) : Nat := c.toNat - '0'.toNat

/-- The number that decimal digits stand for. -/
def numeral (digits : Text) : Nat :=
  digits.foldl (fun value c => 10 * value + digitValue c) 0

/-- The value of a hexadecimal digit. -/
def hexValue? (c : Char) : Option Nat :=
  if '0' ≤ c && c ≤ '9' then some (digitValue c)
  else if 'a' ≤ c && c ≤ 'f' then some (c.toNat - 'a'.toNat + 10)
  else if 'A' ≤ c && c ≤ 'F' then some (c.toNat - 'A'.toNat + 10)
  else none

/-- Is the character a hexadecimal digit? -/
def isHexDigit (c : Char) : Bool := (hexValue? c).isSome

/-- The number that so many hexadecimal digits in front of a text stand for, after the digits of
`value`. -/
def hexNumeral? : Nat → Nat → Text → Option Nat
  | 0, value, _ => some value
  | _ + 1, _, [] => none
  | n + 1, value, c :: rest => do
    let digit ← hexValue? c
    hexNumeral? n (16 * value + digit) rest

/-- Is the text not empty and of these digits only? -/
def isNumeral (isDigit : Char → Bool) (text : Text) : Bool := !text.isEmpty && text.all isDigit

end ServiceScaffold.Text
