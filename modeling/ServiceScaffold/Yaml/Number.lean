import ServiceScaffold.Number.Kind
import ServiceScaffold.Number.Overflow

/-!
# Numbers in YAML

Which texts without quotes are numbers. An integer is written in decimal, hexadecimal, octal or
binary digits and has to fit into 64 bits; one that takes more, but no more than 128, is refused.
Several decimal digits with a zero in front are a text, and so is a number beyond double precision.
-/

namespace ServiceScaffold.Yaml

/-- What a text without quotes is as a number. -/
inductive NumberReading
  /-- A number. -/
  | number (kind : NumberKind)
  /-- An integer of more than 64 bits. -/
  | refused
  /-- No number. -/
  | other
  deriving DecidableEq, Repr

/-- The numbers that have names. -/
def numberWords : List Text :=
  [".inf", ".Inf", ".INF", "+.inf", "+.Inf", "+.INF", "-.inf", "-.Inf", "-.INF", ".nan", ".NaN",
    ".NAN"]

/-- The text without a sign in front. -/
def withoutSign : Text → Text
  | '+' :: rest | '-' :: rest => rest
  | text => text

/-- The number that digits of a base stand for, if all of them are digits of that base. -/
def radixNumeral? (base : Nat) (digits : Text) : Option Nat :=
  if digits.isEmpty then none
  else
    digits.foldlM (fun value c =>
      match Text.hexValue? c with
      | some digit => if digit < base then some (base * value + digit) else none
      | none => none) 0

/-- Is the text of several digits with a zero in front? -/
def isPadded : Text → Bool
  | '0' :: rest => Text.isNumeral Char.isDigit rest
  | _ => false

/-- The integer that a text without a sign is. -/
def magnitude? : Text → Option Nat
  | '0' :: 'x' :: digits => radixNumeral? 16 digits
  | '0' :: 'o' :: digits => radixNumeral? 8 digits
  | '0' :: 'b' :: digits => radixNumeral? 2 digits
  | digits => if isPadded digits then none else radixNumeral? 10 digits

/-- The first magnitude that takes more than so many bits, one less of which is left for a negative
number, but for the least one. -/
def magnitudeLimit (negative : Bool) (bits : Nat) : Nat :=
  if negative then Nat.pow 2 (bits - 1) + 1 else Nat.pow 2 bits

/-- Is the text an exponent, or empty? -/
def isExponent : Text → Bool
  | [] => true
  | c :: rest => (c = 'e' || c = 'E') && Text.isNumeral Char.isDigit (withoutSign rest)

/-- Is the text a decimal number: digits with at most one point among them, and an exponent? -/
def isDecimal (text : Text) : Bool :=
  let whole := text.takeWhile Char.isDigit
  match text.dropWhile Char.isDigit with
  | '.' :: rest =>
    let fraction := rest.takeWhile Char.isDigit
    !(whole.isEmpty && fraction.isEmpty) && isExponent (rest.dropWhile Char.isDigit)
  | rest => !whole.isEmpty && isExponent rest

/-- What a text is that is not an integer: a decimal number within double precision, or one that has
a name. -/
def readFloat (text : Text) : NumberReading :=
  if numberWords.contains text then .number .endless
  else if isDecimal (withoutSign text) && !(Double.Decimal.ofText text).overflows then
    .number .fractional
  else .other

/-- What a text is as an integer. -/
def readInteger (text : Text) : NumberReading :=
  let negative := text.head? = some '-'
  match magnitude? (withoutSign text) with
  | none => .other
  | some magnitude =>
    if magnitude < magnitudeLimit negative 64 then
      .number (if negative && magnitude ≠ 0 then .negative else .natural magnitude)
    else if magnitude < magnitudeLimit negative 128 then .refused
    else .other

/-- What a text is as a number. -/
def readNumber (text : Text) : NumberReading :=
  match readInteger text with
  | .other => if isPadded (withoutSign text) then .other else readFloat text
  | reading => reading

end ServiceScaffold.Yaml
