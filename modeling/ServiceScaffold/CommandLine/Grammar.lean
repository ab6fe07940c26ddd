import ServiceScaffold.Text.Basic

/-!
# The grammar of command lines

How the words of a command line become options and operands. An option has a long name and perhaps
a letter; letters may be bundled, and a value may stand behind the option, behind a `=`, or directly
behind the letter. A word `--` ends the options.

An option or operand is settled when the next one starts, or at the end: only then is it found that
its value is missing, that it was given before, or that its value is not acceptable. Until then it
is pending. A word that is no option of the command is refused at once.
-/

namespace ServiceScaffold.CommandLine

/-- Why a command line is refused, or asks for something other than a command. -/
inductive UsageFault
  | helpRequested
  | versionRequested
  | nothingGiven
  | missingSubcommand
  | unknownSubcommand
  | unknownArgument
  | missingRequired
  | missingValue
  | emptyPath
  | repeated
  | valueForFlag
  deriving DecidableEq, Repr

/-- What a value is; a path is not empty. -/
inductive ValueKind
  | text
  | path
  deriving DecidableEq, Repr

/-- What an option does. -/
inductive OptionKind
  | flag
  | help
  | version
  | value (kind : ValueKind)
  deriving DecidableEq, Repr

/-- An option. -/
structure OptionRule where
  name : Text
  letter : Option Char
  kind : OptionKind
  deriving DecidableEq, Repr

/-- The operands of a command. -/
inductive OperandRule
  | none
  | one (kind : ValueKind)
  | many
  deriving DecidableEq, Repr

/-- What may stand on a command line. -/
structure Grammar where
  options : List OptionRule
  operands : OperandRule
  deriving DecidableEq, Repr

/-- What was started and is not settled yet. -/
inductive Pending
  | option (name : Text) (kind : ValueKind) (value : Option Text)
  | operand (kind : ValueKind) (value : Text)
  deriving DecidableEq, Repr

/-- What was read of a command line. -/
structure Reading where
  /-- The options with their values, in the order of the command line; a flag has no value. -/
  given : List (Text × Text)
  operands : List Text
  pending : Option Pending
  deriving DecidableEq, Repr

/-- A word of a command line. -/
inductive Word
  | separator
  | long (name : Text) (value : Option Text)
  | letters (letters : Text)
  | plain (text : Text)
  deriving DecidableEq, Repr

namespace Word

/-- Which kind of word it is. A `-` alone is no option. -/
def ofText (text : Text) : Word :=
  match text with
  | ['-', '-'] => .separator
  | '-' :: '-' :: body =>
    match Text.splitFirst? '=' body with
    | some (name, value) => .long name (some value)
    | none => .long body none
  | '-' :: c :: rest => .letters (c :: rest)
  | _ => .plain text

end Word

namespace Reading

/-- Nothing was read yet. -/
def start : Reading := ⟨[], [], none⟩

/-- Was the option given? -/
def has (reading : Reading) (name : Text) : Bool := (reading.given.lookup name).isSome

/-- Is the value acceptable? -/
def isAcceptable (kind : ValueKind) (value : Text) : Bool := kind = .text || !value.isEmpty

/-- Records an option with its value. -/
def record (reading : Reading) (name : Text) (kind : ValueKind) (value : Text) :
    Except UsageFault Reading :=
  if reading.has name then .error .repeated
  else if !isAcceptable kind value then .error .emptyPath
  else .ok { reading with given := reading.given ++ [(name, value)] }

/-- Settles what is pending. -/
def settle (reading : Reading) : Except UsageFault Reading :=
  let settled := { reading with pending := none }
  match reading.pending with
  | none => .ok reading
  | some (.option _ _ none) => .error .missingValue
  | some (.option name kind (some value)) => settled.record name kind value
  | some (.operand kind value) =>
    if isAcceptable kind value then .ok { settled with operands := reading.operands ++ [value] }
    else .error .emptyPath

/-- Reads an option that takes no value. -/
def readSwitch (reading : Reading) (rule : OptionRule) : Except UsageFault Reading := do
  let reading ← reading.settle
  match rule.kind with
  | .help => .error .helpRequested
  | .version => .error .versionRequested
  | .flag | .value _ => reading.record rule.name .text []

/-- Reads an option whose value stands behind it in its word. -/
def readAttached (reading : Reading) (rule : OptionRule) (kind : ValueKind) (value : Text) :
    Except UsageFault Reading := do
  (← reading.settle).record rule.name kind value

/-- Reads an option whose value is the next word. -/
def readDetached (reading : Reading) (rule : OptionRule) (kind : ValueKind) :
    Except UsageFault Reading := do
  let reading ← reading.settle
  .ok { reading with pending := some (.option rule.name kind none) }

/-- Reads a long option. -/
def readLong (grammar : Grammar) (reading : Reading) (name : Text) (value : Option Text) :
    Except UsageFault Reading :=
  match grammar.options.find? fun rule => rule.name = name with
  | none => .error .unknownArgument
  | some rule =>
    match rule.kind, value with
    | .value kind, some value => reading.readAttached rule kind value
    | .value kind, none => reading.readDetached rule kind
    | _, some _ => .error .valueForFlag
    | _, none => reading.readSwitch rule

/-- Reads a bundle of letters; what follows the letter of an option with a value is the value. -/
def readLetters (grammar : Grammar) (reading : Reading) : Text → Except UsageFault Reading
  | [] => .ok reading
  | c :: rest =>
    match grammar.options.find? fun rule => rule.letter = some c with
    | none => .error .unknownArgument
    | some rule =>
      match rule.kind, rest with
      | .value kind, [] => reading.readDetached rule kind
      | .value kind, '=' :: value => reading.readAttached rule kind value
      | .value kind, value => reading.readAttached rule kind value
      | _, _ => do readLetters grammar (← reading.readSwitch rule) rest

/-- Reads an operand. -/
def readOperand (grammar : Grammar) (reading : Reading) (text : Text) :
    Except UsageFault Reading :=
  match grammar.operands with
  | .none => .error .unknownArgument
  | .one kind =>
    match reading.pending with
    | some (.operand _ _) => .error .unknownArgument
    | _ =>
      if reading.operands.isEmpty then do
        let reading ← reading.settle
        .ok { reading with pending := some (.operand kind text) }
      else .error .unknownArgument
  | .many => do
    let reading ← reading.settle
    .ok { reading with operands := reading.operands ++ [text] }

/-- Reads a word that is no option: the value of the option before it, or an operand. -/
def readPlain (grammar : Grammar) (reading : Reading) (text : Text) :
    Except UsageFault Reading :=
  match reading.pending with
  | some (.option name kind none) =>
    .ok { reading with pending := some (.option name kind (some text)) }
  | _ => reading.readOperand grammar text

/-- Reads the words behind the separator. -/
def readOperands (grammar : Grammar) (reading : Reading) : List Text → Except UsageFault Reading
  | [] => .ok reading
  | text :: rest => do readOperands grammar (← reading.readOperand grammar text) rest

/-- Reads words, and settles what is pending at their end. -/
def readWords (grammar : Grammar) (reading : Reading) : List Text → Except UsageFault Reading
  | [] => reading.settle
  | text :: rest =>
    match Word.ofText text with
    | .separator => do (← reading.readOperands grammar rest).settle
    | .long name value => do readWords grammar (← reading.readLong grammar name value) rest
    | .letters letters => do readWords grammar (← reading.readLetters grammar letters) rest
    | .plain text => do readWords grammar (← reading.readPlain grammar text) rest

end Reading

end ServiceScaffold.CommandLine
