import ServiceScaffold.Text.Digit

/-!
# Encoded labels

A label of a host name that needs more than ASCII is written in ASCII: behind its ASCII characters
and a hyphen stand numbers in base 36, each of which says how far it is from one further character
and its place to the next one. How many digits a number has depends on its size; a digit below a
threshold is the last one, and the threshold follows the sizes met so far.
-/

namespace ServiceScaffold.Url.Punycode

/-- The value of a digit in base 36. -/
def digit? (c : Char) : Option Nat :=
  if 'a' ≤ c.toLower && c.toLower ≤ 'z' then some (c.toLower.toNat - 'a'.toNat)
  else if c.isDigit then some (26 + Text.digitValue c)
  else none

/-- A digit below this one is the last of its number. -/
def threshold (weight bias : Nat) : Nat :=
  if weight ≤ bias then 1 else min 26 (weight - bias)

/-- Reads a number onto a sum; `weight` counts its digits in steps of 36, `unit` is the worth of the
next one. -/
def readOffset (bias weight unit sum : Nat) : Text → Option (Nat × Text)
  | [] => none
  | c :: rest => do
    let digit ← digit? c
    let least := threshold weight bias
    if digit < least then some (sum + digit * unit, rest)
    else readOffset bias (weight + 36) (unit * (36 - least)) (sum + digit * unit) rest

/-- The bias for a number that was scaled down, and in how many steps of 36. -/
def scaledBias (number steps : Nat) : Nat :=
  if 455 < number then scaledBias (number / 35) (steps + 36)
  else steps + 36 * number / (number + 38)
termination_by number
decreasing_by exact Nat.div_lt_self (by omega) (by omega)

/-- The bias after a number, the first of which counts less; `size` is how many characters there are
then. -/
def nextBias (number size : Nat) (first : Bool) : Nat :=
  let halved := if first then number / 700 else number / 2
  scaledBias (halved + halved / size) 0

/-- The codes of the further characters, in the order in which they are given. Every round reads a
digit at least. -/
def readCodes : Nat → Nat → Nat → Nat → Nat → Text → Option (List Nat)
  | 0, _, _, _, _, _ => some []
  | fuel + 1, code, place, bias, size, input =>
    if input.isEmpty then some []
    else do
      let (sum, rest) ← readOffset bias 36 1 place input
      let size := size + 1
      let code := code + sum / size
      let bias := nextBias (sum - place) size (place = 0)
      let codes ← readCodes fuel code (sum % size + 1) bias size rest
      some (code :: codes)

/-- The codes of the further characters of a label from behind its mark. -/
def codes? (label : Text) : Option (List Nat) :=
  let numbers := (label.reverse.takeWhile (· ≠ '-')).reverse
  let plain := label.length - numbers.length - 1
  readCodes numbers.length 0x80 0 72 plain numbers

end ServiceScaffold.Url.Punycode
