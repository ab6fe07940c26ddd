import ServiceScaffold.Json.Decimal

/-!
# Writing JSON

A JSON document is written over several lines, each level indented by two blanks; an array or an
object without items stays on its line. Texts are written in double quotes, and only quotes,
backslashes and control characters are escaped.
-/

namespace ServiceScaffold.Json

/-- The escape of a control character by its code. -/
def controlEscape (c : Char) : Text :=
  let digits := Nat.toDigits 16 c.toNat
  ['\\', 'u'] ++ List.replicate (4 - digits.length) '0' ++ digits

/-- One character of a written text. -/
def writtenChar (c : Char) : Text :=
  if c = '"' then ['\\', '"']
  else if c = '\\' then ['\\', '\\']
  else if c = '\x08' then ['\\', 'b']
  else if c = '\t' then ['\\', 't']
  else if c = '\n' then ['\\', 'n']
  else if c = '\x0c' then ['\\', 'f']
  else if c = '\r' then ['\\', 'r']
  else if c.toNat < 0x20 then controlEscape c
  else [c]

/-- A text between double quotes. -/
def writtenText (text : Text) : Text := ['"'] ++ text.flatMap writtenChar ++ ['"']

/-- The exponent of a number, with its sign. -/
def writtenExponent (exponent : Int) : Text :=
  (if 0 ≤ exponent then "e+" else "e") ++ Text.ofInt exponent

/-- A value in double precision, written with the fewest digits: positional where the decimal point
lies less than five places before and at most sixteen places behind the first digit, otherwise with
an exponent. -/
def writtenDouble (value : Double) : Text :=
  if value.mantissa = 0 then "0.0"
  else
    let decimal := Double.shortest value
    let digits := Text.ofNat decimal.digits
    let point := (digits.length : Int) + decimal.exponent
    if 0 ≤ decimal.exponent && point ≤ 16 then
      digits ++ List.replicate decimal.exponent.toNat '0' ++ ".0"
    else if 0 < point && point ≤ 16 then
      digits.take point.toNat ++ "." ++ digits.drop point.toNat
    else if -5 < point && point ≤ 0 then
      "0." ++ List.replicate (-point).toNat '0' ++ digits
    else if digits.length = 1 then digits ++ writtenExponent (point - 1)
    else digits.take 1 ++ "." ++ digits.drop 1 ++ writtenExponent (point - 1)

/-- A number. -/
def Number.written : Number → Text
  | .integer value => Text.ofInt value
  | .decimal negative digits exponent =>
    (if negative then "-" else "") ++
      match Decimal.value? digits exponent with
      | some value => writtenDouble value
      | none => "0.0"

/-- The start of a line at a depth. -/
def lineBreak (depth : Nat) : Text := '\n' :: List.replicate (2 * depth) ' '

mutual

/-- A value that starts at a depth. -/
def written (depth : Nat) : Json → Text
  | .null => "null"
  | .bool true => "true"
  | .bool false => "false"
  | .number value => value.written
  | .text value => writtenText value
  | .array [] => "[]"
  | .array (item :: rest) =>
    "[" ++ lineBreak (depth + 1) ++ written (depth + 1) item
      ++ writtenItems (depth + 1) rest ++ lineBreak depth ++ "]"
  | .object [] => "\x7b\x7d"
  | .object ((name, value) :: rest) =>
    "\x7b" ++ lineBreak (depth + 1) ++ writtenText name ++ ": " ++ written (depth + 1) value
      ++ writtenFields (depth + 1) rest ++ lineBreak depth ++ "\x7d"

/-- The items after the first. -/
def writtenItems (depth : Nat) : List Json → Text
  | [] => []
  | item :: rest => "," ++ lineBreak depth ++ written depth item ++ writtenItems depth rest

/-- The fields after the first. -/
def writtenFields (depth : Nat) : List (Text × Json) → Text
  | [] => []
  | (name, value) :: rest =>
    "," ++ lineBreak depth ++ writtenText name ++ ": " ++ written depth value
      ++ writtenFields depth rest

end

/-- The text of a JSON document: its value and a line end. -/
def document (value : Json) : Text := written 0 value ++ "\n"

end ServiceScaffold.Json
