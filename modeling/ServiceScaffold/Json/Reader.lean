import ServiceScaffold.Json.Decimal

/-!
# Reading JSON

A strict reader: one value with white space around it, no comments, no comma at the end of a list,
no control characters inside texts, and no text that names half of a surrogate pair. Values may be
nested to a limited depth.

Each reader takes the text that is left and gives a result and what is left then.
-/

namespace ServiceScaffold.Json

/-- How deep arrays and objects may be nested. -/
def deepest : Nat := 127

/-- Is the character white space between values? -/
def isSpace (c : Char) : Bool := c = ' ' || c = '\t' || c = '\n' || c = '\r'

/-- The text without the white space in front. -/
def skipSpace (text : Text) : Text := text.dropWhile isSpace

/-- A code of four hexadecimal digits. -/
def readUnit (input : Text) : Option (Nat × Text) :=
  (Text.hexNumeral? 4 0 input).map fun code => (code, input.drop 4)

/-- The character of an escape by code; a character beyond 16 bits takes two of them. -/
def readCode (text : Text) : Option (Char × Text) := do
  let (unit, rest) ← readUnit text
  if 0xd800 ≤ unit && unit < 0xdc00 then
    match rest with
    | '\\' :: 'u' :: rest =>
      let (low, rest) ← readUnit rest
      if 0xdc00 ≤ low && low < 0xe000 then
        some (Char.ofNat (0x10000 + (unit - 0xd800) * 0x400 + (low - 0xdc00)), rest)
      else none
    | _ => none
  else if 0xdc00 ≤ unit && unit < 0xe000 then none
  else some (Char.ofNat unit, rest)

/-- The characters of a text up to its closing quote. -/
def readChars : Nat → Text → Option (Text × Text)
  | 0, _ => none
  | _ + 1, [] => none
  | _ + 1, '"' :: rest => some ([], rest)
  | fuel + 1, '\\' :: 'u' :: rest => do
    let (c, rest) ← readCode rest
    let (more, rest) ← readChars fuel rest
    some (c :: more, rest)
  | fuel + 1, '\\' :: c :: rest => do
    let unescaped ←
      if c = '"' || c = '\\' || c = '/' then some c
      else if c = 'b' then some '\x08'
      else if c = 'f' then some '\x0c'
      else if c = 'n' then some '\n'
      else if c = 'r' then some '\r'
      else if c = 't' then some '\t'
      else none
    let (more, rest) ← readChars fuel rest
    some (unescaped :: more, rest)
  | fuel + 1, c :: rest =>
    if c.toNat < 0x20 || c = '\\' then none
    else do
      let (more, rest) ← readChars fuel rest
      some (c :: more, rest)

/-- A text after its opening quote. -/
def readText (text : Text) : Option (Text × Text) := readChars (text.length + 1) text

/-- The digits in front of a text. -/
def readDigits (text : Text) : Text × Text :=
  (text.takeWhile Char.isDigit, text.dropWhile Char.isDigit)

/-- The exponent of a number, if one is written. -/
def readExponent : Text → Option (Option Int × Text)
  | c :: rest =>
    if c = 'e' || c = 'E' then
      let (negative, rest) :=
        match rest with
        | '-' :: rest => (true, rest)
        | '+' :: rest => (false, rest)
        | rest => (false, rest)
      let (digits, rest) := readDigits rest
      if digits.isEmpty then none
      else
        let value : Int := Text.numeral digits
        some (some (if negative then -value else value), rest)
    else some (none, c :: rest)
  | [] => some (none, [])

/-- The fraction of a number, if one is written. -/
def readFraction : Text → Option (Option Text × Text)
  | '.' :: rest =>
    let (digits, rest) := readDigits rest
    if digits.isEmpty then none else some (some digits, rest)
  | rest => some (none, rest)

/-- A number without its sign; one beyond double precision is refused. -/
def readMagnitude (negative : Bool) (input : Text) : Option (Number × Text) := do
  let (whole, rest) := readDigits input
  if whole.isEmpty || (whole.length > 1 && whole.head? = some '0') then none
  let (fraction, rest) ← readFraction rest
  let (exponent, rest) ← readExponent rest
  let value := Text.numeral whole
  if fraction.isNone && exponent.isNone && !(negative && value = 0) &&
      value < (if negative then Decimal.wordLimit / 2 + 1 else Decimal.wordLimit) then
    some (.integer (if negative then -value else value), rest)
  else
    let (digits, power) := Decimal.ofParts whole (fraction.getD []) (exponent.getD 0)
    let _ ← Decimal.value? digits power
    some (.decimal negative digits power, rest)

/-- A number. -/
def readNumber : Text → Option (Number × Text)
  | '-' :: rest => readMagnitude true rest
  | input => readMagnitude false input

mutual

/-- A value; `depth` is how deep it may be nested. The fuel counts the readers entered. -/
def readValue : Nat → Nat → Text → Option (Json × Text)
  | 0, _, _ => none
  | fuel + 1, depth, input =>
    match skipSpace input with
    | 'n' :: 'u' :: 'l' :: 'l' :: rest => some (.null, rest)
    | 't' :: 'r' :: 'u' :: 'e' :: rest => some (.bool true, rest)
    | 'f' :: 'a' :: 'l' :: 's' :: 'e' :: rest => some (.bool false, rest)
    | '"' :: rest => (readText rest).map fun (value, rest) => (.text value, rest)
    | '[' :: rest =>
      if depth = 0 then none
      else
        match skipSpace rest with
        | ']' :: rest => some (.array [], rest)
        | rest => (readItems fuel (depth - 1) rest).map fun (items, rest) => (.array items, rest)
    | '\x7b' :: rest =>
      if depth = 0 then none
      else
        match skipSpace rest with
        | '\x7d' :: rest => some (.object [], rest)
        | rest =>
          (readFields fuel (depth - 1) rest).map fun (fields, rest) => (.object fields, rest)
    | rest => (readNumber rest).map fun (value, rest) => (.number value, rest)

/-- The items of an array, at least one. -/
def readItems : Nat → Nat → Text → Option (List Json × Text)
  | 0, _, _ => none
  | fuel + 1, depth, input => do
    let (item, rest) ← readValue fuel depth input
    match skipSpace rest with
    | ']' :: rest => some ([item], rest)
    | ',' :: rest =>
      let (items, rest) ← readItems fuel depth rest
      some (item :: items, rest)
    | _ => none

/-- The fields of an object, at least one. -/
def readFields : Nat → Nat → Text → Option (List (Text × Json) × Text)
  | 0, _, _ => none
  | fuel + 1, depth, input =>
    match skipSpace input with
    | '"' :: rest => do
      let (name, rest) ← readText rest
      match skipSpace rest with
      | ':' :: rest =>
        let (value, rest) ← readValue fuel depth rest
        match skipSpace rest with
        | '\x7d' :: rest => some ([(name, value)], rest)
        | ',' :: rest =>
          let (fields, rest) ← readFields fuel depth rest
          some ((name, value) :: fields, rest)
        | _ => none
      | _ => none
    | _ => none

end

/-- The value of a JSON document. A reader enters at most two readers for each character that it
reads. -/
def read? (text : Text) : Option Json :=
  match readValue (2 * text.length + 2) deepest text with
  | some (value, rest) => if (skipSpace rest).isEmpty then some value else none
  | none => none

end ServiceScaffold.Json
