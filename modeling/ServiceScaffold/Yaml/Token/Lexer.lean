import ServiceScaffold.Yaml.Token.Mark

/-!
# Cutting a YAML stream into tokens

The lexer passes over a stream from left to right. It keeps the indentation of the open blocks, so
that it can say where one starts and ends, and for each open flow collection and for the blocks
around them the last token that may turn out to be a key. Such a token is a key if a `:` follows on
the same line and not too far away; the tokens that open the key are then put in front of it.
-/

namespace ServiceScaffold.Yaml

/-- A token that may turn out to be a key. -/
structure KeyCandidate where
  /-- How many tokens lie before it. -/
  position : Nat
  /-- Has it to be a key, because nothing else may stand in its place? -/
  required : Bool
  index : Nat
  line : Nat
  column : Nat
  deriving DecidableEq, Repr

/-- The longest key that is not marked as one, in bytes. -/
def longestKey : Nat := 1024

/-- The state of the lexer. -/
structure Lexer where
  cursor : Cursor
  /-- The tokens so far, the last one first. -/
  tokens : List Token
  /-- The column of the innermost block, or -1 outside all blocks. -/
  indent : Int
  /-- The columns of the blocks around it. -/
  outer : List Int
  /-- May a key start here? -/
  keyAllowed : Bool
  /-- The candidate of the blocks, or of the outermost flow collection's surroundings. -/
  blockKey : Option KeyCandidate
  /-- The candidates of the open flow collections, the innermost first. -/
  flowKeys : List (Option KeyCandidate)
  deriving Repr

namespace Lexer

/-- The lexer in front of a stream. -/
def start (stream : Text) : Lexer :=
  ⟨Cursor.start stream, [], -1, [], true, none, []⟩

/-- Is the lexer inside a flow collection? -/
def inFlow (lexer : Lexer) : Bool := !lexer.flowKeys.isEmpty

/-- The candidate of the innermost collection. -/
def candidate (lexer : Lexer) : Option KeyCandidate :=
  match lexer.flowKeys with
  | [] => lexer.blockKey
  | key :: _ => key

/-- The lexer with another candidate for the innermost collection. -/
def withCandidate (lexer : Lexer) (key : Option KeyCandidate) : Lexer :=
  match lexer.flowKeys with
  | [] => { lexer with blockKey := key }
  | _ :: rest => { lexer with flowKeys := key :: rest }

/-- One more token. -/
def emit (lexer : Lexer) (token : Token) : Lexer :=
  { lexer with tokens := token :: lexer.tokens }

/-- One more token, behind the first so many. -/
def insert (lexer : Lexer) (position : Nat) (token : Token) : Lexer :=
  let later := lexer.tokens.length - position
  { lexer with tokens := lexer.tokens.take later ++ token :: lexer.tokens.drop later }

/-- The lexer so many characters later. -/
def skip (lexer : Lexer) (n : Nat) : Lexer := { lexer with cursor := lexer.cursor.skip n }

/-- A key may start here, or may not. -/
def allowKey (lexer : Lexer) (allowed : Bool) : Lexer := { lexer with keyAllowed := allowed }

/-! ## Indentation -/

/-- Opens a block at a column unless one is open there; its token goes behind the first so many. -/
def openBlock (lexer : Lexer) (column position : Nat) (token : Token) : Lexer :=
  if !lexer.inFlow && lexer.indent < column then
    { lexer.insert position token with
      indent := column
      outer := lexer.indent :: lexer.outer }
  else lexer

/-- Opens a block here unless one is open in this column. -/
def openBlockHere (lexer : Lexer) (token : Token) : Lexer :=
  lexer.openBlock lexer.cursor.column lexer.tokens.length token

/-- The columns around, and the tokens, after closing the blocks to the right of a column. -/
def closeTo (column : Int) : Int → List Int → List Token → Int × List Int × List Token
  | indent, [], tokens => (indent, [], tokens)
  | indent, parent :: outer, tokens =>
    if indent > column then closeTo column parent outer (.blockEnd :: tokens)
    else (indent, parent :: outer, tokens)

/-- Closes the blocks to the right of a column. -/
def closeBlocks (lexer : Lexer) (column : Int) : Lexer :=
  if lexer.inFlow then lexer
  else
    let (indent, outer, tokens) := closeTo column lexer.indent lexer.outer lexer.tokens
    { lexer with indent, outer, tokens }

/-! ## Keys -/

/-- The candidate is no key after all; one that has to be is refused. -/
def dropCandidate (lexer : Lexer) : Option Lexer :=
  if lexer.candidate.any KeyCandidate.required then none else some (lexer.withCandidate none)

/-- The token that comes next is a candidate if a key may start here. -/
def noteCandidate (lexer : Lexer) : Option Lexer :=
  if lexer.keyAllowed then do
    let lexer ← lexer.dropCandidate
    let cursor := lexer.cursor
    some (lexer.withCandidate (some {
      position := lexer.tokens.length
      required := !lexer.inFlow && lexer.indent = cursor.column
      index := cursor.index
      line := cursor.line
      column := cursor.column }))
  else some lexer

/-- Is the candidate on an earlier line, or too far away? -/
def isStale (cursor : Cursor) (key : KeyCandidate) : Bool :=
  key.line < cursor.line || key.index + longestKey < cursor.index

/-- Drops a candidate that is stale; one that has to be a key is refused. -/
def refresh (cursor : Cursor) : Option KeyCandidate → Option (Option KeyCandidate)
  | none => some none
  | some key =>
    if isStale cursor key then
      if key.required then none else some none
    else some (some key)

/-- Drops the candidates that are stale. -/
def refreshAll (lexer : Lexer) : Option Lexer := do
  let blockKey ← refresh lexer.cursor lexer.blockKey
  let flowKeys ← lexer.flowKeys.mapM (refresh lexer.cursor)
  some { lexer with blockKey, flowKeys }

/-! ## Tokens -/

/-- Passes blanks, comments and line ends in front of a token. A tab counts as a blank only where
no key may start; a line end outside flow collections lets one start. -/
def skipToToken : Nat → Lexer → Lexer
  | 0, lexer => lexer
  | fuel + 1, lexer =>
    let cursor := lexer.cursor
    let cursor :=
      if cursor.column = 0 && cursor.startsIn (fun c => c.toNat = 0xfeff) then cursor.skip 1
      else cursor
    let tabs := lexer.inFlow || !lexer.keyAllowed
    let cursor := cursor.skipWhile fun c => c = ' ' || (tabs && c = '\t')
    let cursor := if cursor.starts '#' then cursor.skipLine else cursor
    if cursor.startsIn isBreak then
      skipToToken fuel
        { lexer with
          cursor := cursor.readBreak.2
          keyAllowed := lexer.keyAllowed || !lexer.inFlow }
    else { lexer with cursor }

/-- The mark of a document's start or end. -/
def readDocumentMark (lexer : Lexer) (token : Token) : Option Lexer := do
  let lexer ← (lexer.closeBlocks (-1)).dropCandidate
  some (((lexer.allowKey false).skip 3).emit token)

/-- A directive. -/
def readDirectiveToken (lexer : Lexer) : Option Lexer := do
  let lexer ← (lexer.closeBlocks (-1)).dropCandidate
  let (token, cursor) ← readDirective lexer.cursor
  some (({ lexer with cursor }.allowKey false).emit token)

/-- The opening of a flow collection. -/
def openFlow (lexer : Lexer) (token : Token) : Option Lexer := do
  let lexer ← lexer.noteCandidate
  some ((({ lexer with flowKeys := none :: lexer.flowKeys }.allowKey true).skip 1).emit token)

/-- The closing of a flow collection. -/
def closeFlow (lexer : Lexer) (token : Token) : Option Lexer := do
  let lexer ← lexer.dropCandidate
  some ((({ lexer with flowKeys := lexer.flowKeys.tail }.allowKey false).skip 1).emit token)

/-- The comma of a flow collection. -/
def readFlowEntry (lexer : Lexer) : Option Lexer := do
  let lexer ← lexer.dropCandidate
  some (((lexer.allowKey true).skip 1).emit .flowEntry)

/-- The `-` of a block sequence. -/
def readBlockEntry (lexer : Lexer) : Option Lexer := do
  if !lexer.inFlow && !lexer.keyAllowed then none
  else
    let lexer ← (lexer.openBlockHere .blockSequenceStart).dropCandidate
    some (((lexer.allowKey true).skip 1).emit .blockEntry)

/-- The `?` of a key. -/
def readKey (lexer : Lexer) : Option Lexer := do
  if !lexer.inFlow && !lexer.keyAllowed then none
  else
    let lexer ← (lexer.openBlockHere .blockMappingStart).dropCandidate
    some (((lexer.allowKey !lexer.inFlow).skip 1).emit .key)

/-- The `:` of a value: the candidate, if there is one, is its key. -/
def readValue (lexer : Lexer) : Option Lexer :=
  match lexer.candidate with
  | some key =>
    let lexer := (lexer.insert key.position .key).openBlock key.column key.position
      .blockMappingStart
    some ((((lexer.withCandidate none).allowKey false).skip 1).emit .value)
  | none =>
    if !lexer.inFlow && !lexer.keyAllowed then none
    else
      let lexer := lexer.openBlockHere .blockMappingStart
      some (((lexer.allowKey !lexer.inFlow).skip 1).emit .value)

/-- The name of a node, or a reference to one. -/
def readAnchor (lexer : Lexer) (token : Text → Token) : Option Lexer := do
  let lexer ← lexer.noteCandidate
  let (name, cursor) ← readAnchorName (lexer.cursor.skip 1)
  some (({ lexer with cursor }.allowKey false).emit (token name))

/-- A tag. -/
def readTagToken (lexer : Lexer) : Option Lexer := do
  let lexer ← lexer.noteCandidate
  let (token, cursor) ← readTag lexer.inFlow lexer.cursor
  some (({ lexer with cursor }.allowKey false).emit token)

/-- A block scalar. -/
def readBlockScalar (lexer : Lexer) (style : ScalarStyle) : Option Lexer := do
  let lexer ← lexer.dropCandidate
  let (text, cursor) ← readBlock (style = .folded) lexer.indent (lexer.cursor.skip 1)
  some (({ lexer with cursor }.allowKey true).emit (.scalar style text))

/-- A scalar in quotes. -/
def readQuoted (lexer : Lexer) (read : Nat → Text → Cursor → Option (Text × Cursor)) :
    Option Lexer := do
  let lexer ← lexer.noteCandidate
  let (text, cursor) ← read lexer.cursor.rest.length [] (lexer.cursor.skip 1)
  some (({ lexer with cursor }.allowKey false).emit (.scalar .quoted text))

/-- A scalar without quotes; a line end behind it lets a key start. -/
def readPlainScalar (lexer : Lexer) : Option Lexer := do
  let lexer ← lexer.noteCandidate
  let (text, broken, cursor) ←
    readPlain lexer.inFlow (lexer.indent + 1) lexer.cursor.rest.length [] .nothing lexer.cursor
  some (({ lexer with cursor }.allowKey broken).emit (.scalar .plain text))

/-- The characters that no scalar without quotes starts with. -/
def indicators : List Char :=
  ['-', '?', ':', ',', '[', ']', '\x7b', '\x7d', '#', '&', '*', '!', '|', '>', '\'', '"', '%', '@',
    '\x60']

/-- Can a scalar without quotes start so? -/
def startsPlain (inFlow : Bool) (c : Char) (rest : Text) : Bool :=
  !(isSpacing c || indicators.contains c) || (c = '-' && !rest.head?.any isGap)
    || (!inFlow && (c = '?' || c = ':') && !endsWord rest)

/-- Reads the token that starts with this character. -/
def readToken (lexer : Lexer) (c : Char) (rest : Text) : Option Lexer :=
  let free := lexer.inFlow || endsWord rest
  if lexer.cursor.column = 0 && c = '%' then lexer.readDirectiveToken
  else if lexer.cursor.atDocumentMark then
    lexer.readDocumentMark (if c = '-' then .documentStart else .documentEnd)
  else if c = '[' then lexer.openFlow .flowSequenceStart
  else if c = '\x7b' then lexer.openFlow .flowMappingStart
  else if c = ']' then lexer.closeFlow .flowSequenceEnd
  else if c = '\x7d' then lexer.closeFlow .flowMappingEnd
  else if c = ',' then lexer.readFlowEntry
  else if c = '-' && endsWord rest then lexer.readBlockEntry
  else if c = '?' && free then lexer.readKey
  else if c = ':' && free then lexer.readValue
  else if c = '*' then lexer.readAnchor .alias
  else if c = '&' then lexer.readAnchor .anchor
  else if c = '!' then lexer.readTagToken
  else if c = '|' && !lexer.inFlow then lexer.readBlockScalar .literal
  else if c = '>' && !lexer.inFlow then lexer.readBlockScalar .folded
  else if c = '\'' then lexer.readQuoted readSingleQuoted
  else if c = '"' then lexer.readQuoted readDoubleQuoted
  else if startsPlain lexer.inFlow c rest then lexer.readPlainScalar
  else none

/-- Reads all tokens. Every round reads at least one character. -/
def run : Nat → Lexer → Option (List Token)
  | 0, _ => none
  | fuel + 1, lexer => do
    let lexer ← (skipToToken (lexer.cursor.rest.length + 1) lexer).refreshAll
    let lexer := lexer.closeBlocks lexer.cursor.column
    match lexer.cursor.rest with
    | [] =>
      let lexer ← (lexer.closeBlocks (-1)).dropCandidate
      some lexer.tokens.reverse
    | c :: rest => run fuel (← lexer.readToken c rest)

end Lexer

/-- The tokens of a stream; nothing if it holds a character that no stream may hold, or if it
cannot be cut into tokens. -/
def Token.all? (stream : Text) : Option (List Token) :=
  if stream.all isAllowed then Lexer.run (stream.length + 1) (Lexer.start stream) else none

end ServiceScaffold.Yaml
