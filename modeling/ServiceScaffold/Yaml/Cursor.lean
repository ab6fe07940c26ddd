import ServiceScaffold.Text.Digit

/-!
# A place in a YAML stream

What is left of a stream, and where that starts: how many bytes lie before it, on which line and
in which column. The classes of characters that the structure of a stream depends on are
defined here too: blanks, line breaks, and the characters that no stream may hold.
-/

namespace ServiceScaffold.Yaml

/-- A space or a tab. -/
def isGap (c : Char) : Bool := c = ' ' || c = '\t'

/-- Does the character end a line? -/
def isBreak (c : Char) : Bool :=
  c = '\n' || c = '\r' || c.toNat = 0x85 || c.toNat = 0x2028 || c.toNat = 0x2029

/-- Does the character separate words: a blank or the end of a line? -/
def isSpacing (c : Char) : Bool := isGap c || isBreak c

/-- May the character stand in a stream? -/
def isAllowed (c : Char) : Bool :=
  let n := c.toNat
  n = 0x09 || n = 0x0a || n = 0x0d || (0x20 ≤ n && n ≤ 0x7e) || n = 0x85
    || (0xa0 ≤ n && n ≤ 0xfffd) || 0x10000 ≤ n

/-- A letter, a digit, `_` or `-`. -/
def isLabelChar (c : Char) : Bool := c.isAlphanum || c = '_' || c = '-'

/-- Starts the text with the end of a word: a blank, the end of a line, or nothing? -/
def endsWord : Text → Bool
  | [] => true
  | c :: _ => isSpacing c

/-- What is left of a stream, and where it starts. -/
structure Cursor where
  rest : Text
  /-- How many bytes lie before it in UTF-8. -/
  index : Nat
  line : Nat
  column : Nat
  deriving DecidableEq, Repr

namespace Cursor

/-- The start of a stream. -/
def start (stream : Text) : Cursor := ⟨stream, 0, 0, 0⟩

/-- The place so many characters later on the same line. -/
def skip (cursor : Cursor) (n : Nat) : Cursor :=
  { cursor with
    rest := cursor.rest.drop n
    index := cursor.index + Text.byteLength (cursor.rest.take n)
    column := cursor.column + n }

/-- The characters of a class, none of which ends a line, and the place behind them. -/
def span (cursor : Cursor) (holds : Char → Bool) : Text × Cursor :=
  let taken := cursor.rest.takeWhile holds
  (taken, cursor.skip taken.length)

/-- The place behind the characters of a class. -/
def skipWhile (cursor : Cursor) (holds : Char → Bool) : Cursor := (cursor.span holds).2

/-- The place behind the rest of the line. -/
def skipLine (cursor : Cursor) : Cursor := cursor.skipWhile fun c => !isBreak c

/-- What the end of a line counts as, and the place behind it: a line end of one or two characters
is a line feed, but the separators of lines and paragraphs stay what they are. -/
def readBreak (cursor : Cursor) : Text × Cursor :=
  match cursor.rest with
  | '\r' :: '\n' :: rest => (['\n'], ⟨rest, cursor.index + 2, cursor.line + 1, 0⟩)
  | c :: rest =>
    if isBreak c then
      (if c.toNat = 0x2028 || c.toNat = 0x2029 then [c] else ['\n'],
        ⟨rest, cursor.index + c.utf8Size, cursor.line + 1, 0⟩)
    else ([], cursor)
  | [] => ([], cursor)

/-- Starts the rest with this character? -/
def starts (cursor : Cursor) (c : Char) : Bool := cursor.rest.head? = some c

/-- Starts the rest with a character of a class? -/
def startsIn (cursor : Cursor) (holds : Char → Bool) : Bool := cursor.rest.head?.any holds

/-- Does the line end here, or the stream? -/
def atLineEnd (cursor : Cursor) : Bool := cursor.rest.head?.all isBreak

/-- Does the line start here with a mark of a document's start or end? -/
def atDocumentMark (cursor : Cursor) : Bool :=
  cursor.column = 0 &&
    match cursor.rest with
    | '-' :: '-' :: '-' :: rest => endsWord rest
    | '.' :: '.' :: '.' :: rest => endsWord rest
    | _ => false

end Cursor

end ServiceScaffold.Yaml
