import ServiceScaffold.Number.Overflow
import ServiceScaffold.Text.Escape
import ServiceScaffold.Toml.Table

/-!
# TOML scalars

The values without an inner structure: texts in their four kinds of quotes, numbers, truth values
and times.
-/

namespace ServiceScaffold.Toml

/-! ## Texts -/

/-- May the character stand in a comment or inside quotes? Tabs are the only controls. -/
def isPrintable (c : Char) : Bool := c = '\t' || (0x20 ≤ c.toNat && c.toNat ≠ 0x7f)

/-- A space or a tab. -/
def isGap (c : Char) : Bool := c = ' ' || c = '\t'

/-- The text after a line end, if it starts with one. -/
def afterLineEnd? : Text → Option Text
  | '\n' :: rest => some rest
  | '\r' :: '\n' :: rest => some rest
  | _ => none

/-- The escapes of a text. -/
def escapes : Text.Escapes where
  letters :=
    [('b', 8), ('t', 9), ('n', 10), ('f', 12), ('r', 13), ('e', 0x1b), ('"', 0x22), ('\\', 0x5c)]
  codes := [('x', 2), ('u', 4), ('U', 8)]

/-- Reads a text from behind its opening quote. -/
def readBasic : Nat → Text → Option (Text × Text)
  | 0, _ => none
  | fuel + 1, input =>
    match input with
    | '"' :: rest => some ([], rest)
    | '\\' :: rest => do
      let (c, length) ← escapes.read rest
      let (more, rest) ← readBasic fuel (rest.drop length)
      some (c :: more, rest)
    | c :: rest =>
      if isPrintable c then (readBasic fuel rest).map fun (more, rest) => (c :: more, rest)
      else none
    | [] => none

/-- Reads a text without escapes from behind its opening quote. -/
def readLiteral : Text → Option (Text × Text)
  | '\'' :: rest => some ([], rest)
  | c :: rest =>
    if isPrintable c then (readLiteral rest).map fun (more, rest) => (c :: more, rest) else none
  | [] => none

/-- The end of a text over several lines: three quotes, before which at most two more belong to the
text. -/
def readLongEnd (quote : Char) (input : Text) : Option (Text × Text) :=
  let quotes := min 5 (input.takeWhile (· = quote)).length
  if quotes < 3 then none
  else some (List.replicate (quotes - 3) quote, input.drop quotes)

/-- The text after blanks and line ends. -/
def skipGapsAndLines : Nat → Text → Text
  | 0, input => input
  | fuel + 1, input =>
    match afterLineEnd? (input.dropWhile isGap) with
    | some rest => skipGapsAndLines fuel rest
    | none => input.dropWhile isGap

/-- Reads a text over several lines, whose ends stay as they are. A backslash at the end of a line
joins it with the next word; `hasEscapes` says whether backslashes count at all. -/
def readLong (quote : Char) (hasEscapes : Bool) : Nat → Text → Option (Text × Text)
  | 0, _ => none
  | fuel + 1, input =>
    match readLongEnd quote input with
    | some result => some result
    | none =>
      match input with
      | [] => none
      | c :: rest =>
        if c = '\\' && hasEscapes then
          if (afterLineEnd? (rest.dropWhile isGap)).isSome then
            readLong quote hasEscapes fuel (skipGapsAndLines rest.length rest)
          else do
            let (c, length) ← escapes.read rest
            let (more, rest) ← readLong quote hasEscapes fuel (rest.drop length)
            some (c :: more, rest)
        else if isPrintable c || (afterLineEnd? input).isSome then
          (readLong quote hasEscapes fuel rest).map fun (more, rest) => (c :: more, rest)
        else none

/-- Reads a text over several lines from behind its opening quotes; a line end directly there does
not count. -/
def readLongText (quote : Char) (hasEscapes : Bool) (input : Text) : Option (Text × Text) :=
  let body := (afterLineEnd? input).getD input
  readLong quote hasEscapes (body.length + 1) body

/-! ## Numbers -/

/-- The text without a sign in front. -/
def withoutSign : Text → Text
  | '+' :: rest | '-' :: rest => rest
  | text => text

/-- Are these digits, with single underscores between some of them? -/
def isGrouped (isDigit : Char → Bool) (text : Text) : Bool :=
  (text.splitOn '_').all (Text.isNumeral isDigit)

/-- Is the text a decimal integer without a sign? No zero stands in front of other digits. -/
def isWhole (text : Text) : Bool :=
  isGrouped Char.isDigit text && (text.length = 1 || text.head? ≠ some '0')

/-- The number that grouped digits of a base stand for. -/
def groupedValue (base : Nat) (text : Text) : Nat :=
  text.foldl (fun value c => match Text.hexValue? c with
    | some digit => base * value + digit
    | none => value) 0

/-- The first number that takes more than 128 bits. -/
def integerLimit : Nat := Nat.pow 2 128

/-- Is the text an integer? -/
def isInteger (text : Text) : Bool :=
  match text with
  | '0' :: 'x' :: digits => isGrouped Text.isHexDigit digits
  | '0' :: 'o' :: digits => isGrouped (fun c => '0' ≤ c && c ≤ '7') digits
  | '0' :: 'b' :: digits => isGrouped (fun c => c = '0' || c = '1') digits
  | _ => isWhole (withoutSign text)

/-- Does an integer fit into 128 bits, one of which a negative one leaves to its sign? -/
def integerFits (text : Text) : Bool :=
  match text with
  | '0' :: 'x' :: digits => groupedValue 16 digits < integerLimit
  | '0' :: 'o' :: digits => groupedValue 8 digits < integerLimit
  | '0' :: 'b' :: digits => groupedValue 2 digits < integerLimit
  | '-' :: digits => groupedValue 10 digits < integerLimit / 2 + 1
  | _ => groupedValue 10 text < integerLimit

/-- Is the text an exponent? -/
def isExponent : Text → Bool
  | c :: rest => (c = 'e' || c = 'E') && isGrouped Char.isDigit (withoutSign rest)
  | [] => false

/-- Is the text a number with a fraction or an exponent, or one that has a name? -/
def isFloat (text : Text) : Bool :=
  let magnitude := withoutSign text
  let isMantissa (c : Char) : Bool := c.isDigit || c = '_'
  if magnitude = "inf" || magnitude = "nan" then true
  else
    isWhole (magnitude.takeWhile isMantissa) &&
      match magnitude.dropWhile isMantissa with
      | '.' :: rest =>
        isGrouped Char.isDigit (rest.takeWhile isMantissa)
          && ((rest.dropWhile isMantissa).isEmpty || isExponent (rest.dropWhile isMantissa))
      | rest => isExponent rest

/-! ## Times -/

/-- Reads a number of exactly so many digits, within bounds. -/
def readField (digits least greatest : Nat) (input : Text) : Option (Nat × Text) :=
  let field := input.take digits
  let value := Text.numeral field
  if field.length = digits && field.all Char.isDigit && least ≤ value && value ≤ greatest then
    some (value, input.drop digits)
  else none

/-- The text after a character, if it starts with that. -/
def after? (mark : Char) : Text → Option Text
  | c :: rest => if c = mark then some rest else none
  | [] => none

/-- How many days a month has. -/
def daysOf (year month : Nat) : Nat :=
  if month = 2 then
    if year % 4 = 0 && (year % 100 ≠ 0 || year % 400 = 0) then 29 else 28
  else if month = 4 || month = 6 || month = 9 || month = 11 then 30
  else 31

/-- Reads a date; gives what follows. -/
def readDate (input : Text) : Option Text := do
  let (year, rest) ← readField 4 0 9999 input
  let (month, rest) ← readField 2 1 12 (← after? '-' rest)
  let (_, rest) ← readField 2 1 (daysOf year month) (← after? '-' rest)
  some rest

/-- Reads the fraction of a second, if there is one; gives what follows. -/
def readFraction : Text → Option Text
  | '.' :: rest =>
    if (rest.takeWhile Char.isDigit).isEmpty then none else some (rest.dropWhile Char.isDigit)
  | rest => some rest

/-- Reads a time of day, of which the seconds may be left out; gives what follows. -/
def readClock (input : Text) : Option Text := do
  let (_, rest) ← readField 2 0 23 input
  let (_, rest) ← readField 2 0 59 (← after? ':' rest)
  match rest with
  | ':' :: rest =>
    let (_, rest) ← readField 2 0 60 rest
    readFraction rest
  | rest => some rest

/-- Is the text the offset of a time, or empty? -/
def isOffset : Text → Bool
  | [] => true
  | [c] => c = 'Z' || c = 'z'
  | c :: rest =>
    (c = '+' || c = '-') &&
      ((do
        let (_, rest) ← readField 2 0 23 rest
        let (_, rest) ← readField 2 0 59 (← after? ':' rest)
        some rest) : Option Text) = some []

/-- Is the text a date, a time of day, or both? -/
def isTime (text : Text) : Bool :=
  match readDate text with
  | some [] => true
  | some (c :: rest) =>
    (c = 'T' || c = 't' || c = ' ') && (readClock rest).any isOffset
  | none => readClock text = some []

/-! ## Scalars without quotes -/

/-- May the character stand in a scalar without quotes? -/
def isWordChar (c : Char) : Bool :=
  c.isAlphanum || c = '_' || c = '-' || c = '+' || c = '.' || c = ':'

/-- The word that a text starts with; a date takes the time behind one blank with it. -/
def readWord (input : Text) : Text × Text :=
  let word := input.takeWhile isWordChar
  match input.dropWhile isWordChar with
  | ' ' :: c :: rest =>
    if readDate word = some [] && c.isDigit then
      (word ++ ' ' :: (c :: rest).takeWhile isWordChar, (c :: rest).dropWhile isWordChar)
    else (word, ' ' :: c :: rest)
  | rest => (word, rest)

/-- The value of a word. -/
def wordValue? (word : Text) : Option Value :=
  if word = "true" || word = "false" then some .flag
  else if isInteger word then some (.number (integerFits word))
  else if isFloat word then some (.number !(Double.Decimal.ofText word).overflows)
  else if isTime word then some .time
  else none

end ServiceScaffold.Toml
