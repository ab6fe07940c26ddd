import ServiceScaffold.Text.Blank
import ServiceScaffold.Text.Escape
import ServiceScaffold.Url.Punycode

/-!
# Hosts of URLs

Which texts name a host: an address in brackets, an address of up to four numbers, or a name. A host
whose last part is a number has to be an address. Where the scheme says nothing about hosts, any
text does that holds no delimiter.
-/

namespace ServiceScaffold.Url

/-! ## Addresses -/

/-- The number that a part of an address is: hexadecimal behind `0x`, octal behind another zero, and
decimal otherwise. -/
def partValue? : Text → Option Nat
  | [] => none
  | '0' :: 'x' :: digits =>
    digits.foldlM (fun value c => (Text.hexValue? c).map (16 * value + ·)) 0
  | '0' :: c :: digits =>
    if (c :: digits).all fun c => '0' ≤ c && c ≤ '7' then
      some ((c :: digits).foldl (fun value c => 8 * value + Text.digitValue c) 0)
    else none
  | digits => if digits.all Char.isDigit then some (Text.numeral digits) else none

/-- The parts of a name between its dots, of which an empty one at the end does not count. -/
def hostParts (name : Text) : List Text :=
  let parts := name.splitOn '.'
  if parts.getLast? = some [] then parts.dropLast else parts

/-- Is the last part a number? -/
def endsInNumber (parts : List Text) : Bool :=
  parts.getLast?.any fun last => Text.isNumeral Char.isDigit last || (partValue? last).isSome

/-- Are the parts an address of 32 bits? Each but the last is a byte, and the last one takes the
bytes that are left. -/
def isIpv4 (parts : List Text) : Bool :=
  match parts.mapM partValue? with
  | none => false
  | some values =>
    parts.length ≤ 4 && values.dropLast.all (· < 256)
      && values.getLast?.any (· < Nat.pow 256 (5 - parts.length))

/-- Is the text a byte in decimal digits, without a zero in front? -/
def isByte (text : Text) : Bool :=
  Text.isNumeral Char.isDigit text && (text.length = 1 || text.head? ≠ some '0')
    && Text.numeral text < 256

/-- Is the text four bytes with dots between them? -/
def isDottedBytes (text : Text) : Bool :=
  let parts := text.splitOn '.'
  parts.length = 4 && parts.all isByte

/-- Is the text a group of an address of 128 bits? -/
def isGroup (text : Text) : Bool := Text.isNumeral Text.isHexDigit text && text.length ≤ 4

/-- How many groups a text has, with colons between them; four bytes at its end count as two
groups where they may stand. -/
def groupCount? (endsInBytes : Bool) (text : Text) : Option Nat :=
  let parts := text.splitOn ':'
  if text.isEmpty then some 0
  else if parts.all isGroup then some parts.length
  else if endsInBytes && parts.dropLast.all isGroup && parts.getLast?.any isDottedBytes then
    some (parts.length + 1)
  else none

/-- The text before and behind two colons. -/
def splitAtGap? : Text → Option (Text × Text)
  | ':' :: ':' :: rest => some ([], rest)
  | c :: rest => (splitAtGap? rest).map fun parts => (c :: parts.1, parts.2)
  | [] => none

/-- Is the text an address of 128 bits? It has eight groups, or fewer and one gap. -/
def isIpv6 (text : Text) : Bool :=
  match splitAtGap? text with
  | none => groupCount? true text = some 8
  | some (front, back) =>
    match groupCount? false front, groupCount? true back with
    | some before, some behind => before + behind ≤ 7
    | _, _ => false

/-! ## Names -/

/-- The characters between which a URL is divided, besides the percent sign. -/
def delimiters : List Char :=
  [' ', '#', '/', ':', '<', '>', '?', '@', '[', '\\', ']', '^', '|']

/-- May the ASCII character stand in a name? -/
def isNameChar (c : Char) : Bool :=
  !delimiters.contains c && c ≠ '%' && 0x20 < c.toNat && c.toNat ≠ 0x7f

/-- Is the character beyond ASCII of no use in a name: a blank, a control, or without a meaning? -/
def isMeaningless (c : Char) : Bool :=
  let n := c.toNat
  Text.isBlank c || n < 0xa0 || n = 0x61c || (0x200c ≤ n && n ≤ 0x200f)
    || (0x202a ≤ n && n ≤ 0x202e) || (0x2061 ≤ n && n ≤ 0x206f && n ≠ 0x2064)
    || (0xe000 ≤ n && n < 0xf900) || (0xfff0 ≤ n && n ≤ 0xffff) || 0xe0200 ≤ n

/-- Does the character not count in a name? -/
def isIgnored (c : Char) : Bool :=
  let n := c.toNat
  n = 0xad || n = 0x34f || (0x180b ≤ n && n ≤ 0x180d) || n = 0x200b || n = 0x2060 || n = 0x2064
    || (0xfe00 ≤ n && n ≤ 0xfe0f) || n = 0xfeff || (0xe0100 ≤ n && n ≤ 0xe01ef)

/-- The character in its usual form: lower case in ASCII, the usual width, and a dot for other full
stops. -/
def usualForm (c : Char) : Char :=
  let n := c.toNat
  if n = 0x3002 || n = 0xff61 then '.'
  else if 0xff01 ≤ n && n ≤ 0xff5e then (Char.ofNat (n - 0xfee0)).toLower
  else c.toLower

/-- May the character stand in a name? -/
def isAcceptable (c : Char) : Bool := if c.toNat < 0x80 then isNameChar c else !isMeaningless c

/-- Is the part of a name fit for use? An encoded one has to spell a character beyond ASCII. -/
def isLabel (label : Text) : Bool :=
  match List.isPrefixOf? "xn--".toList label with
  | none => label.all isAcceptable
  | some code =>
    label.all isAcceptable &&
      match Punycode.codes? code with
      | none | some [] => false
      | some codes => codes.all fun n => Text.isCharCode n && !isMeaningless (Char.ofNat n)

/-- The bytes of a text, those given by `%` and two digits spelled out. -/
def percentDecoded : Text → List UInt8
  | '%' :: a :: b :: rest =>
    match Text.hexValue? a, Text.hexValue? b with
    | some high, some low => UInt8.ofNat (16 * high + low) :: percentDecoded rest
    | _, _ => 0x25 :: percentDecoded (a :: b :: rest)
  | c :: rest => c.toString.toUTF8.toList ++ percentDecoded rest
  | [] => []

/-- The name that a text spells. -/
def nameOf? (text : Text) : Option Text :=
  (String.fromUTF8? ⟨(percentDecoded text).toArray⟩).map fun spelled =>
    (spelled.toList.filter fun c => !isIgnored c).map usualForm

/-- Is the text a name, or an address that looks like one? -/
def isDomain (text : Text) : Bool :=
  match nameOf? text with
  | none => false
  | some name =>
    !name.isEmpty && (name.splitOn '.').all isLabel
      && (!endsInNumber (hostParts name) || isIpv4 (hostParts name))

/-! ## Hosts -/

/-- The text between brackets, if it starts with one; nothing stands behind the closing one. -/
def isBracketed (text : Text) : Bool :=
  text.getLast? = some ']' && isIpv6 (text.drop 1).dropLast

/-- Is the text a host of one of the schemes that connect to hosts? -/
def isHost (text : Text) : Bool :=
  if text.head? = some '[' then isBracketed text else isDomain text

/-- Is the text a host of another scheme? It may be empty. -/
def isOpaqueHost (text : Text) : Bool :=
  if text.head? = some '[' then isBracketed text
  else text.all fun c => !delimiters.contains c && c ≠ '\x00'

end ServiceScaffold.Url
