import ServiceScaffold.Yaml.Token.Scalar

/-!
# Directives, anchors and tags of YAML

The tokens that say something about a document or a node: the version of the language, the handles
that stand for the beginnings of tags, the names of nodes, and the tags themselves.

A reader gives a token and the place behind it, or nothing if the token is not well formed.
-/

namespace ServiceScaffold.Yaml

/-! ## Tags -/

/-- The characters of a tag besides letters, digits, `_` and `-`. -/
def addressMarks : List Char :=
  [';', '/', '?', ':', '@', '&', '=', '+', '$', '.', '%', '!', '~', '*', '\'', '(', ')']

/-- Is the character one of a tag? Commas and brackets are so only where the tag stands alone. -/
def isAddressChar (alone : Bool) (c : Char) : Bool :=
  isLabelChar c || addressMarks.contains c || (alone && (c = ',' || c = '[' || c = ']'))

/-- The byte that a text starts with, spelled by `%` and two digits. -/
def readOctet : Text → Option (UInt8 × Text)
  | '%' :: a :: b :: rest => do
    let high ← Text.hexValue? a
    let low ← Text.hexValue? b
    some (UInt8.ofNat (16 * high + low), rest)
  | _ => none

/-- How many bytes go with the first byte of a character, by the highest bits of that. -/
def bytesBehind? (lead : UInt8) : Option Nat :=
  if lead < 0x80 then some 0
  else if 0xc0 ≤ lead && lead < 0xe0 then some 1
  else if 0xe0 ≤ lead && lead < 0xf0 then some 2
  else if 0xf0 ≤ lead && lead < 0xf8 then some 3
  else none

/-- Reads so many bytes that may stand behind the first of a character. -/
def readBehind : Nat → Text → Option (Tag × Text)
  | 0, input => some ([], input)
  | n + 1, input => do
    let (octet, rest) ← readOctet input
    if 0x80 ≤ octet && octet < 0xc0 then
      let (octets, rest) ← readBehind n rest
      some (octet :: octets, rest)
    else none

/-- The bytes of a tag. A character that is spelled has as many bytes as its first one asks for; the
bytes need not be those of a character that exists. -/
def unescapeAddress : Nat → Text → Option Tag
  | 0, _ => some []
  | _ + 1, [] => some []
  | fuel + 1, c :: rest =>
    if c = '%' then do
      let (lead, rest) ← readOctet (c :: rest)
      let (octets, rest) ← readBehind (← bytesBehind? lead) rest
      some (lead :: octets ++ (← unescapeAddress fuel rest))
    else do
      some (Tag.ofText [c] ++ (← unescapeAddress fuel rest))

/-- Reads the characters of a tag. -/
def readAddress (alone : Bool) (cursor : Cursor) : Option (Tag × Cursor) := do
  let (written, cursor) := cursor.span (isAddressChar alone)
  let address ← unescapeAddress written.length written
  some (address, cursor)

/-- Reads a handle: `!`, or a name between two of them, or the beginning of neither. -/
def readHandle (cursor : Cursor) : Option (Text × Cursor) :=
  if cursor.starts '!' then
    let (name, cursor) := (cursor.skip 1).span isLabelChar
    if cursor.starts '!' then some ('!' :: name ++ ['!'], cursor.skip 1)
    else some ('!' :: name, cursor)
  else none

/-- Is the text a handle with its second `!`? -/
def isClosedHandle (handle : Text) : Bool := handle.length > 1 && handle.getLast? = some '!'

/-- Reads a tag without the rule for what follows it. -/
def readBareTag (cursor : Cursor) : Option (Token × Cursor) :=
  match cursor.rest with
  | '!' :: '<' :: _ => do
    let (address, cursor) ← readAddress true (cursor.skip 2)
    if address.isEmpty || !cursor.starts '>' then none
    else some (.tag [] address, cursor.skip 1)
  | _ => do
    let (handle, cursor) ← readHandle cursor
    let (address, cursor) ← readAddress false cursor
    if isClosedHandle handle then
      if address.isEmpty then none else some (.tag handle address, cursor)
    else
      let suffix := Tag.ofText (handle.drop 1) ++ address
      if suffix.isEmpty then some (.tag [] (Tag.ofText ['!']), cursor)
      else some (.tag ['!'] suffix, cursor)

/-- Reads a tag; it ends with its word, or before a comma of a flow collection. -/
def readTag (inFlow : Bool) (cursor : Cursor) : Option (Token × Cursor) := do
  let (token, cursor) ← readBareTag cursor
  if endsWord cursor.rest || (inFlow && cursor.starts ',') then some (token, cursor) else none

/-! ## Anchors -/

/-- May the character follow the name of an anchor? -/
def endsAnchor : Text → Bool
  | [] => true
  | c :: _ =>
    isSpacing c || c = '?' || c = ':' || c = ',' || c = ']' || c = '\x7d' || c = '%' || c = '@'
      || c.toNat = 0x60

/-- Reads the name of an anchor from behind its indicator. -/
def readAnchorName (cursor : Cursor) : Option (Text × Cursor) :=
  let (name, cursor) := cursor.span isLabelChar
  if name.isEmpty || !endsAnchor cursor.rest then none else some (name, cursor)

/-! ## Directives -/

/-- Reads a number of at most nine digits. -/
def readVersionNumber (cursor : Cursor) : Option (Nat × Cursor) :=
  let (digits, cursor) := cursor.span Char.isDigit
  if digits.isEmpty || digits.length > 9 then none
  else some (Text.numeral digits, cursor)

/-- Reads the version that a directive names. -/
def readVersion (cursor : Cursor) : Option (Token × Cursor) := do
  let (major, cursor) ← readVersionNumber (cursor.skipWhile isGap)
  if cursor.starts '.' then
    let (minor, cursor) ← readVersionNumber (cursor.skip 1)
    some (.versionDirective major minor, cursor)
  else none

/-- Reads the handle that a directive declares and what it stands for. -/
def readTagDeclaration (cursor : Cursor) : Option (Token × Cursor) := do
  let (handle, cursor) ← readHandle (cursor.skipWhile isGap)
  if handle = ['!'] || isClosedHandle handle then
    if cursor.startsIn isGap then
      let (address, cursor) ← readAddress true (cursor.skipWhile isGap)
      if address.isEmpty || !endsWord cursor.rest then none
      else some (.tagDirective handle address, cursor)
    else none
  else none

/-- Reads a directive from its `%` to the end of its line. -/
def readDirective (cursor : Cursor) : Option (Token × Cursor) := do
  let (name, cursor) := (cursor.skip 1).span isLabelChar
  if name.isEmpty || !endsWord cursor.rest then none
  else
    let (token, cursor) ←
      if name = "YAML" then readVersion cursor
      else if name = "TAG" then readTagDeclaration cursor
      else none
    let cursor := cursor.skipWhile isGap
    let cursor := if cursor.starts '#' then cursor.skipLine else cursor
    if cursor.atLineEnd then some (token, cursor.readBreak.2) else none

end ServiceScaffold.Yaml
