import ServiceScaffold.Toml.Scalar

/-!
# Reading TOML

The grammar of a settings file: one statement a line, comments, keys with dots, and values that may
be arrays and tables in braces over several lines. The statements make up the document's table.

Each reader takes the text that is left and gives a result and what is left then.
-/

namespace ServiceScaffold.Toml

/-- How deep arrays and tables in braces may be nested. -/
def deepest : Nat := 80

/-- The text without the blanks in front. -/
def skipGaps (input : Text) : Text := input.dropWhile isGap

/-- The text after a comment, if one starts here; it holds no control characters. -/
def skipComment (input : Text) : Option Text :=
  match input with
  | '#' :: rest =>
    let after := rest.dropWhile isPrintable
    if after.isEmpty || (afterLineEnd? after).isSome then some after else none
  | _ => some input

/-- The text after blanks, comments and line ends. -/
def skipLines : Nat → Text → Option Text
  | 0, input => some input
  | fuel + 1, input => do
    let rest ← skipComment (skipGaps input)
    match afterLineEnd? rest with
    | some rest => skipLines fuel rest
    | none => some rest

/-! ## Keys -/

/-- May the character stand in a key without quotes? -/
def isKeyChar (c : Char) : Bool := c.isAlphanum || c = '_' || c = '-'

/-- Reads one part of a key. -/
def readKeyPart (input : Text) : Option (Text × Text) :=
  match input with
  | '"' :: rest => readBasic (rest.length + 1) rest
  | '\'' :: rest => readLiteral rest
  | _ =>
    let key := input.takeWhile isKeyChar
    if key.isEmpty then none else some (key, input.dropWhile isKeyChar)

/-- How many parts a key may have. -/
def mostParts : Nat := 80

/-- Reads at most so many parts of a key, with dots between them and blanks around those. -/
def readParts : Nat → Text → Option (List Text × Text)
  | 0, _ => none
  | most + 1, input => do
    let (part, rest) ← readKeyPart (skipGaps input)
    match skipGaps rest with
    | '.' :: rest =>
      let (parts, rest) ← readParts most rest
      some (part :: parts, rest)
    | rest => some ([part], rest)

/-- Reads a key. -/
def readKey (input : Text) : Option (List Text × Text) := readParts mostParts input

/-! ## Values -/

mutual

/-- A value; `depth` is how deep it may be nested. The fuel counts the readers entered. -/
def readValue : Nat → Nat → Text → Option (Value × Text)
  | 0, _, _ => none
  | fuel + 1, depth, input =>
    match input with
    | '"' :: '"' :: '"' :: rest =>
      (readLongText '"' true rest).map fun (value, rest) => (.text value, rest)
    | '\'' :: '\'' :: '\'' :: rest =>
      (readLongText '\'' false rest).map fun (value, rest) => (.text value, rest)
    | '"' :: rest =>
      (readBasic (rest.length + 1) rest).map fun (value, rest) => (.text value, rest)
    | '\'' :: rest => (readLiteral rest).map fun (value, rest) => (.text value, rest)
    | '[' :: rest =>
      if depth = 0 then none
      else do
        let (items, rest) ← readItems fuel (depth - 1) rest
        some (.array items, rest)
    | '\x7b' :: rest =>
      if depth = 0 then none
      else do
        let (pairs, rest) ← readPairs fuel (depth - 1) rest
        let table ← Table.ofPairs? pairs
        some (table.value, rest)
    | _ => do
      let (word, rest) := readWord input
      some (← wordValue? word, rest)

/-- The items of an array up to its bracket. -/
def readItems : Nat → Nat → Text → Option (List Value × Text)
  | 0, _, _ => none
  | fuel + 1, depth, input => do
    match ← skipLines input.length input with
    | ']' :: rest => some ([], rest)
    | rest =>
      let (item, rest) ← readValue fuel depth rest
      match ← skipLines rest.length rest with
      | ',' :: rest =>
        let (items, rest) ← readItems fuel depth rest
        some (item :: items, rest)
      | ']' :: rest => some ([item], rest)
      | _ => none

/-- The fields of a table in braces up to its brace. -/
def readPairs : Nat → Nat → Text → Option (List (List Text × Value) × Text)
  | 0, _, _ => none
  | fuel + 1, depth, input => do
    match ← skipLines input.length input with
    | '\x7d' :: rest => some ([], rest)
    | rest =>
      let (key, rest) ← readKey rest
      match rest with
      | '=' :: rest =>
        let (value, rest) ← readValue fuel depth (skipGaps rest)
        match ← skipLines rest.length rest with
        | ',' :: rest =>
          let (pairs, rest) ← readPairs fuel depth rest
          some ((key, value) :: pairs, rest)
        | '\x7d' :: rest => some ([(key, value)], rest)
        | _ => none
      | _ => none

end

/-! ## Documents -/

/-- Reads a statement. -/
def readStatement (input : Text) : Option (Statement × Text) :=
  match input with
  | '[' :: '[' :: rest => do
    let (path, rest) ← readKey rest
    match rest with
    | ']' :: ']' :: rest => some (.doubleHeader path, rest)
    | _ => none
  | '[' :: rest => do
    let (path, rest) ← readKey rest
    match rest with
    | ']' :: rest => some (.header path, rest)
    | _ => none
  | _ => do
    let (path, rest) ← readKey input
    match rest with
    | '=' :: rest =>
      let (value, rest) ← readValue (2 * rest.length + 2) deepest (skipGaps rest)
      some (.pair path value, rest)
    | _ => none

/-- Reads the statements of a document. Every round reads a statement. -/
def readStatements : Nat → Text → Option (List Statement)
  | 0, _ => none
  | fuel + 1, input => do
    let input ← skipLines input.length input
    if input.isEmpty then some []
    else
      let (statement, rest) ← readStatement input
      let rest ← skipComment (skipGaps rest)
      if rest.isEmpty then some [statement]
      else
        let rest ← afterLineEnd? rest
        let statements ← readStatements fuel rest
        some (statement :: statements)

/-- The text without a byte order mark in front. -/
def withoutMark : Text → Text
  | c :: rest => if c.toNat = 0xfeff then rest else c :: rest
  | [] => []

/-- The table of a document. -/
def read? (content : Text) : Option Table :=
  let input := withoutMark content
  (readStatements (input.length + 1) input).bind Table.ofStatements?

end ServiceScaffold.Toml
