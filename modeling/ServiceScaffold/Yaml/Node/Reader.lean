import ServiceScaffold.Yaml.Node
import ServiceScaffold.Yaml.Token.Lexer

/-!
# Reading YAML

The grammar of a stream that holds one document. The reader looks at one token to decide how to go
on. A name stands for the last node that started with it, but can be used only after that node's
end: a node that holds a reference to itself is refused.
-/

namespace ServiceScaffold.Yaml

/-- What the reader has in front of it, and what it knows. -/
structure Source where
  tokens : List Token
  /-- What the handles of tags stand for. -/
  handles : List (Text × Tag)
  /-- The names of nodes, the last one first, and how many nodes had a name before. -/
  anchors : List (Text × Nat)
  /-- The named nodes that are complete, by that number. -/
  complete : List (Nat × Measured)

/-- A reader of a part of a document. -/
abbrev Reader (α : Type) := StateT Source Option α

namespace Reader

/-- The next token. -/
def peek : Reader (Option Token) := do
  pure (← get).tokens.head?

/-- Passes the next token. -/
def skip : Reader Unit := modify fun source => { source with tokens := source.tokens.tail }

/-- Is the next token one of these? -/
def nextIn (tokens : List Token) : Reader Bool := do
  match ← peek with
  | some token => pure (tokens.contains token)
  | none => pure false

/-- The properties of a node. -/
structure Properties where
  anchor : Option Text
  tag : Option Tag

/-- The anchor in front of a node, if there is one. -/
def readAnchor : Reader (Option Text) := do
  match ← peek with
  | some (.anchor name) =>
    skip
    pure (some name)
  | _ => pure none

/-- The handles that need no declaration. -/
def commonHandles : List (Text × Tag) :=
  [(['!'], Tag.ofText ['!']), (['!', '!'], Tag.ofText "tag:yaml.org,2002:")]

/-- The tag in front of a node, if there is one; its handle has to be known. -/
def readTag : Reader (Option Tag) := do
  match ← peek with
  | some (.tag handle suffix) =>
    skip
    if handle.isEmpty then pure (some suffix)
    else
      match ((← get).handles ++ commonHandles).lookup handle with
      | some address => pure (some (address ++ suffix))
      | none => failure
  | _ => pure none

/-- The properties in front of a node, in either order. -/
def readProperties : Reader Properties := do
  let before ← readAnchor
  let tag ← readTag
  let after ← if before.isNone && tag.isSome then readAnchor else pure none
  pure ⟨before.or after, tag⟩

/-- The node that a name refers to. -/
def refer (name : Text) : Reader Measured := do
  let source ← get
  match (source.anchors.lookup name).bind fun number => source.complete.lookup number with
  | some target => pure target.referred
  | none => failure

/-- Gives a name to the node that starts here. -/
def nameNode (name : Text) : Reader Nat := do
  let number := (← get).anchors.length
  modify fun source => { source with anchors := (name, number) :: source.anchors }
  pure number

/-- The named node is complete. -/
def complete (number : Nat) (node : Measured) : Reader Unit :=
  modify fun source => { source with complete := (number, node) :: source.complete }

mutual

/-- A node; `inBlock` says whether it may be a block, `flush` whether the entries of a sequence may
stand in the column of the mapping around it. -/
def readNode (inBlock flush : Bool) : Nat → Reader Measured
  | 0 => failure
  | fuel + 1 => do
    match ← peek with
    | some (.alias name) =>
      skip
      refer name
    | _ =>
      let properties ← readProperties
      match properties.anchor with
      | none => readContent inBlock flush properties fuel
      | some name =>
        let number ← nameNode name
        let node ← readContent inBlock flush properties fuel
        complete number node
        pure node

/-- A node behind its properties. -/
def readContent (inBlock flush : Bool) (properties : Properties) : Nat → Reader Measured
  | 0 => failure
  | fuel + 1 => do
    let tag := properties.tag
    match ← peek, inBlock, flush with
    | some (.scalar style text), _, _ =>
      skip
      pure (.scalar style tag text)
    | some .flowSequenceStart, _, _ =>
      skip
      pure (.sequence tag (← readFlowItems true fuel))
    | some .flowMappingStart, _, _ =>
      skip
      pure (.mapping tag (← readFlowFields true fuel))
    | some .blockSequenceStart, true, _ =>
      skip
      pure (.sequence tag (← readBlockItems fuel))
    | some .blockMappingStart, true, _ =>
      skip
      pure (.mapping tag (← readBlockFields fuel))
    | some .blockEntry, _, true => pure (.sequence tag (← readFlushItems fuel))
    | _, _, _ =>
      if properties.anchor.isSome || tag.isSome then pure (.scalar .plain tag [])
      else failure

/-- A node, or nothing if one of these tokens comes next. -/
def readUnless (ends : List Token) (inBlock flush : Bool) : Nat → Reader Measured
  | 0 => failure
  | fuel + 1 => do
    if ← nextIn ends then pure .blank else readNode inBlock flush fuel

/-- The items of a block sequence up to its end. -/
def readBlockItems : Nat → Reader (List Measured)
  | 0 => failure
  | fuel + 1 => do
    match ← peek with
    | some .blockEntry =>
      skip
      let item ← readUnless [.blockEntry, .blockEnd] true false fuel
      let rest ← readBlockItems fuel
      pure (item :: rest)
    | some .blockEnd =>
      skip
      pure []
    | _ => failure

/-- The items of a sequence in the column of the mapping around it. -/
def readFlushItems : Nat → Reader (List Measured)
  | 0 => failure
  | fuel + 1 => do
    match ← peek with
    | some .blockEntry =>
      skip
      let item ← readUnless [.blockEntry, .key, .value, .blockEnd] true false fuel
      let rest ← readFlushItems fuel
      pure (item :: rest)
    | _ => pure []

/-- The fields of a block mapping up to its end. -/
def readBlockFields : Nat → Reader (List (Measured × Measured))
  | 0 => failure
  | fuel + 1 => do
    match ← peek with
    | some .key =>
      skip
      let key ← readUnless [.key, .value, .blockEnd] true true fuel
      let value ←
        if ← nextIn [.value] then do
          skip
          readUnless [.key, .value, .blockEnd] true true fuel
        else pure .blank
      let rest ← readBlockFields fuel
      pure ((key, value) :: rest)
    | some .blockEnd =>
      skip
      pure []
    | _ => failure

/-- The items of a flow sequence up to its end; `first` says whether none was read yet. An item may
be a mapping of one field without brackets. -/
def readFlowItems (first : Bool) : Nat → Reader (List Measured)
  | 0 => failure
  | fuel + 1 => do
    if ← nextIn [.flowSequenceEnd] then
      skip
      pure []
    else
      if !first then
        if ← nextIn [.flowEntry] then skip else failure
      if ← nextIn [.flowSequenceEnd] then
        skip
        pure []
      else
        let item ←
          if ← nextIn [.key] then do
            skip
            readPair fuel
          else readNode false false fuel
        let rest ← readFlowItems false fuel
        pure (item :: rest)

/-- A mapping of one field inside a flow sequence, from behind its key's indicator. Where the key is
missing the token in its place is passed. -/
def readPair : Nat → Reader Measured
  | 0 => failure
  | fuel + 1 => do
    let key ←
      if ← nextIn [.value, .flowEntry, .flowSequenceEnd] then do
        skip
        pure .blank
      else readNode false false fuel
    let value ←
      if ← nextIn [.value] then do
        skip
        readUnless [.flowEntry, .flowSequenceEnd] false false fuel
      else pure .blank
    pure (.mapping none [(key, value)])

/-- The fields of a flow mapping up to its end; `first` says whether none was read yet. A field may
be a key alone. -/
def readFlowFields (first : Bool) : Nat → Reader (List (Measured × Measured))
  | 0 => failure
  | fuel + 1 => do
    if ← nextIn [.flowMappingEnd] then
      skip
      pure []
    else
      if !first then
        if ← nextIn [.flowEntry] then skip else failure
      if ← nextIn [.flowMappingEnd] then
        skip
        pure []
      else
        let field ←
          if ← nextIn [.key] then do
            skip
            let key ← readUnless [.value, .flowEntry, .flowMappingEnd] false false fuel
            let value ←
              if ← nextIn [.value] then do
                skip
                readUnless [.flowEntry, .flowMappingEnd] false false fuel
              else pure .blank
            pure (key, value)
          else do
            let key ← readNode false false fuel
            pure (key, .blank)
        let rest ← readFlowFields false fuel
        pure (field :: rest)

end

/-- The directives in front of a document: at most one version, which has to be 1.1 or 1.2, and at
most one declaration of each handle. Gives the handles. -/
def readDirectives : Nat → Bool → List (Text × Tag) → Reader (List (Text × Tag))
  | 0, _, _ => failure
  | fuel + 1, versionSeen, handles => do
    match ← peek with
    | some (.versionDirective major minor) =>
      if versionSeen || major ≠ 1 || (minor ≠ 1 && minor ≠ 2) then failure
      else
        skip
        readDirectives fuel true handles
    | some (.tagDirective handle address) =>
      if (handles.lookup handle).isSome then failure
      else
        skip
        readDirectives fuel versionSeen ((handle, address) :: handles)
    | _ => pure handles

/-- Is the token one that only stands between documents? -/
def isBetween : Token → Bool
  | .versionDirective _ _ | .tagDirective _ _ | .documentStart | .documentEnd => true
  | _ => false

/-- The content of a document whose start is marked; it may be missing. -/
def readMarkedContent (fuel : Nat) : Reader Measured := do
  match ← peek with
  | none => pure .blank
  | some token => if isBetween token then pure .blank else readNode true false fuel

/-- The one document of a stream. -/
def readDocument (fuel : Nat) : Reader Measured := do
  match ← peek with
  | none => failure
  | some .documentEnd => failure
  | some token =>
    let node ←
      if isBetween token then do
        let handles ← readDirectives fuel false []
        if ← nextIn [.documentStart] then
          skip
          modify fun source => { source with handles }
          readMarkedContent fuel
        else failure
      else readNode true false fuel
    modify fun source =>
      { source with
        tokens := source.tokens.dropWhile fun token => token = Token.documentEnd }
    if (← peek).isNone then pure node else failure

end Reader

/-- The document of a stream, if the stream is well formed, holds one document, and that can be
walked through. No reader is entered more than four times between two tokens. -/
def Node.read? (stream : Text) : Option Node := do
  let tokens ← Token.all? stream
  let (document, _) ← (Reader.readDocument (4 * tokens.length + 4)).run ⟨tokens, [], [], []⟩
  if document.isModest then some document.node else none

end ServiceScaffold.Yaml
