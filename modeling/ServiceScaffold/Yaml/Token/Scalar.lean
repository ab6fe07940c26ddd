import ServiceScaffold.Text.Escape
import ServiceScaffold.Yaml.Token

/-!
# Scalars of YAML

The text of a scalar in each of its styles. A scalar without quotes and one in quotes are folded: a
single line end counts as a blank, and of several the first does not count. A block scalar keeps its
line ends or folds them, and an indicator says which of those at its end are kept.

A reader gives the text and the place behind the scalar, or nothing if the scalar is not well
formed.
-/

namespace ServiceScaffold.Yaml

/-- What separates two pieces of a folded scalar: blanks on one line, or the first line end and
those after it. -/
structure Fold where
  blanks : Text
  broken : Bool
  first : Text
  more : Text
  deriving DecidableEq, Repr

namespace Fold

/-- Nothing between two pieces. -/
def nothing : Fold := ⟨[], false, [], []⟩

/-- What follows a line end that does not count. -/
def escaped : Fold := ⟨[], true, [], []⟩

/-- What the separation counts as. -/
def text (fold : Fold) : Text :=
  if !fold.broken then fold.blanks
  else if fold.first = ['\n'] then
    if fold.more.isEmpty then [' '] else fold.more
  else fold.first ++ fold.more

/-- Reads blanks and line ends. A tab before the column `margin` of a new line is refused. -/
def read (margin : Int) : Nat → Fold → Cursor → Option (Fold × Cursor)
  | 0, fold, cursor => some (fold, cursor)
  | fuel + 1, fold, cursor =>
    match cursor.rest with
    | [] => some (fold, cursor)
    | c :: _ =>
      if isGap c then
        if fold.broken && (cursor.column : Int) < margin && c = '\t' then none
        else if fold.broken then read margin fuel fold (cursor.skip 1)
        else read margin fuel { fold with blanks := fold.blanks ++ [c] } (cursor.skip 1)
      else if isBreak c then
        let (lineEnd, after) := cursor.readBreak
        if fold.broken then read margin fuel { fold with more := fold.more ++ lineEnd } after
        else read margin fuel ⟨[], true, lineEnd, []⟩ after
      else some (fold, cursor)

end Fold

/-! ## Without quotes -/

/-- Is the character an indicator of flow collections? -/
def isFlowMark (c : Char) : Bool :=
  c = ',' || c = '[' || c = ']' || c = '\x7b' || c = '\x7d'

/-- The characters up to a blank or an indicator. Inside a flow collection a `:` directly before an
indicator is refused. -/
def plainPiece (inFlow : Bool) : Text → Option Text
  | [] => some []
  | c :: rest =>
    if isSpacing c then some []
    else if inFlow && c = ':' && rest.head?.any (fun d => isFlowMark d || d = '?') then none
    else if (c = ':' && endsWord rest) || (inFlow && isFlowMark c) then some []
    else (plainPiece inFlow rest).map (c :: ·)

/-- Reads a scalar without quotes; gives also whether a line ended behind it. -/
def readPlain (inFlow : Bool) (margin : Int) :
    Nat → Text → Fold → Cursor → Option (Text × Bool × Cursor)
  | 0, read, fold, cursor => some (read, fold.broken, cursor)
  | fuel + 1, read, fold, cursor =>
    if cursor.atDocumentMark || cursor.starts '#' then some (read, fold.broken, cursor)
    else do
      let piece ← plainPiece inFlow cursor.rest
      if piece.isEmpty then some (read, fold.broken, cursor)
      else
        let read := read ++ fold.text ++ piece
        let cursor := cursor.skip piece.length
        if cursor.startsIn isSpacing then
          let (fold, cursor) ← Fold.read margin cursor.rest.length .nothing cursor
          if !inFlow && (cursor.column : Int) < margin then some (read, fold.broken, cursor)
          else readPlain inFlow margin fuel read fold cursor
        else some (read, false, cursor)

/-! ## In quotes -/

/-- The escapes of a scalar in double quotes. -/
def escapes : Text.Escapes where
  letters :=
    [('0', 0), ('a', 7), ('b', 8), ('t', 9), ('\t', 9), ('n', 10), ('v', 11), ('f', 12), ('r', 13),
      ('e', 0x1b), (' ', 0x20), ('"', 0x22), ('/', 0x2f), ('\\', 0x5c), ('N', 0x85), ('_', 0xa0),
      ('L', 0x2028), ('P', 0x2029)]
  codes := [('x', 2), ('u', 4), ('U', 8)]

/-- Reads a scalar in double quotes from behind the first of them; `read` is what was read, the
last character first. -/
def readDoubleQuoted : Nat → Text → Cursor → Option (Text × Cursor)
  | 0, _, _ => none
  | fuel + 1, read, cursor =>
    if cursor.atDocumentMark then none
    else
      match cursor.rest with
      | [] => none
      | '"' :: _ => some (read.reverse, cursor.skip 1)
      | '\\' :: rest =>
        if rest.head?.any isBreak then do
          let after := (cursor.skip 1).readBreak.2
          let (fold, cursor) ← Fold.read 0 after.rest.length .escaped after
          readDoubleQuoted fuel (fold.text.reverse ++ read) cursor
        else do
          let (c, length) ← escapes.read rest
          readDoubleQuoted fuel (c :: read) (cursor.skip (1 + length))
      | c :: _ =>
        if isSpacing c then do
          let (fold, cursor) ← Fold.read 0 cursor.rest.length .nothing cursor
          readDoubleQuoted fuel (fold.text.reverse ++ read) cursor
        else readDoubleQuoted fuel (c :: read) (cursor.skip 1)

/-- Reads a scalar in single quotes from behind the first of them; a quote in it is doubled. -/
def readSingleQuoted : Nat → Text → Cursor → Option (Text × Cursor)
  | 0, _, _ => none
  | fuel + 1, read, cursor =>
    if cursor.atDocumentMark then none
    else
      match cursor.rest with
      | [] => none
      | '\'' :: '\'' :: _ => readSingleQuoted fuel ('\'' :: read) (cursor.skip 2)
      | '\'' :: _ => some (read.reverse, cursor.skip 1)
      | c :: _ =>
        if isSpacing c then do
          let (fold, cursor) ← Fold.read 0 cursor.rest.length .nothing cursor
          readSingleQuoted fuel (fold.text.reverse ++ read) cursor
        else readSingleQuoted fuel (c :: read) (cursor.skip 1)

/-! ## Blocks -/

/-- What becomes of the line ends behind a block scalar. -/
inductive Chomping
  | strip
  | clip
  | keep
  deriving DecidableEq, Repr

/-- The header of a block scalar: its indicators in either order, how far it is indented more than
its parent if that is given. -/
structure BlockHeader where
  chomping : Chomping
  increment : Option Nat
  deriving DecidableEq, Repr

/-- The chomping that an indicator asks for. -/
def chompingOf? (c : Char) : Option Chomping :=
  if c = '+' then some .keep else if c = '-' then some .strip else none

/-- Reads an increment, if there is one; zero is refused. -/
def readIncrement (cursor : Cursor) : Option (Option Nat × Cursor) :=
  match cursor.rest with
  | c :: _ =>
    if c = '0' then none
    else if c.isDigit then some (some (Text.digitValue c), cursor.skip 1)
    else some (none, cursor)
  | [] => some (none, cursor)

/-- Reads a chomping indicator, if there is one. -/
def readChomping (cursor : Cursor) : Option Chomping × Cursor :=
  match cursor.rest.head?.bind chompingOf? with
  | some chomping => (some chomping, cursor.skip 1)
  | none => (none, cursor)

/-- Reads the header of a block scalar up to the end of its line. -/
def readBlockHeader (cursor : Cursor) : Option (BlockHeader × Cursor) := do
  let (before, cursor) := readChomping cursor
  let (increment, cursor) ← readIncrement cursor
  let (after, cursor) :=
    if before.isNone && increment.isSome then readChomping cursor else (none, cursor)
  let cursor := cursor.skipWhile isGap
  let cursor := if cursor.starts '#' then cursor.skipLine else cursor
  if cursor.atLineEnd then
    some (⟨(before.or after).getD .clip, increment⟩, cursor.readBreak.2)
  else none

/-- Reads the indentation and the empty lines in front of a line of a block; `indent` is zero as
long as it is not known. Gives the line ends, and the greatest indentation met. -/
def readBlockBreaks (indent : Nat) : Nat → Nat → Text → Cursor → Option (Nat × Text × Cursor)
  | 0, widest, breaks, cursor => some (widest, breaks, cursor)
  | fuel + 1, widest, breaks, cursor =>
    let spaces := (cursor.rest.takeWhile (· = ' ')).length
    let cursor :=
      cursor.skip (if indent = 0 then spaces else min spaces (indent - cursor.column))
    let widest := max widest cursor.column
    if (indent = 0 || cursor.column < indent) && cursor.starts '\t' then none
    else if cursor.startsIn isBreak then
      let (lineEnd, cursor) := cursor.readBreak
      readBlockBreaks indent fuel widest (breaks ++ lineEnd) cursor
    else some (widest, breaks, cursor)

/-- Reads the lines of a block scalar at its indentation. `lineEnd` is the end of the line before,
`wasBlank` says whether that line started with a blank, `breaks` are the empty lines since. Gives
the text and the line ends behind it. -/
def readBlockLines (folds : Bool) (indent : Nat) :
    Nat → Text → Text → Bool → Text → Cursor → Option (Text × Text × Text × Cursor)
  | 0, read, lineEnd, _, breaks, cursor => some (read, lineEnd, breaks, cursor)
  | fuel + 1, read, lineEnd, wasBlank, breaks, cursor =>
    if cursor.column = indent && !cursor.rest.isEmpty then do
      let isBlank := cursor.startsIn isGap
      let joint :=
        if folds && lineEnd = ['\n'] && !wasBlank && !isBlank then
          if breaks.isEmpty then [' '] else []
        else lineEnd
      let (line, cursor) := cursor.span fun c => !isBreak c
      let (lineEnd, cursor) := cursor.readBreak
      let (_, after, cursor) ← readBlockBreaks indent cursor.rest.length 0 [] cursor
      readBlockLines folds indent fuel (read ++ joint ++ breaks ++ line) lineEnd isBlank after cursor
    else some (read, lineEnd, breaks, cursor)

/-- Reads a block scalar from behind its indicator; `parent` is the indentation around it. -/
def readBlock (folds : Bool) (parent : Int) (cursor : Cursor) : Option (Text × Cursor) := do
  let (header, cursor) ← readBlockHeader cursor
  let given :=
    match header.increment with
    | some n => (if parent ≥ 0 then parent.toNat else 0) + n
    | none => 0
  let (widest, breaks, cursor) ← readBlockBreaks given cursor.rest.length 0 [] cursor
  let indent := if given = 0 then max (max widest (parent + 1).toNat) 1 else given
  let (read, lineEnd, after, cursor) ←
    readBlockLines folds indent cursor.rest.length [] [] false breaks cursor
  match header.chomping with
  | .strip => some (read, cursor)
  | .clip => some (read ++ lineEnd, cursor)
  | .keep => some (read ++ lineEnd ++ after, cursor)

end ServiceScaffold.Yaml
