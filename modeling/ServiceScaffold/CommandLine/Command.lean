import ServiceScaffold.CommandLine.Grammar
import ServiceScaffold.Project.Options

/-!
# Commands

The commands of the program and how a command line gives one: the options that stand before any
command, the command's name, and the command's own options and operands.
-/

namespace ServiceScaffold.CommandLine

/-- A command. -/
inductive Command
  /-- Create a project. -/
  | new (options : ProjectOptions) (config : Option Path)
  /-- Generate the controllers of service files. -/
  | controllers (serviceDir controllerDir : Path) (config : Option Path) (files : List Text)
  /-- Show the methods of a service file. -/
  | inspect (file : Path)
  deriving DecidableEq, Repr

/-- A command line. -/
structure Invocation where
  verbose : Bool
  command : Command
  deriving DecidableEq, Repr

/-- The names of the commands. -/
inductive CommandName
  | new
  | controllers
  | inspect
  deriving DecidableEq, Repr

namespace CommandName

/-- The name of a command as it is written. -/
def label : CommandName → Text
  | new => "new"
  | controllers => "controllers"
  | inspect => "inspect"

/-- The command with this name. -/
def ofText? (text : Text) : Option CommandName :=
  [new, controllers, inspect].find? fun name => name.label = text

end CommandName

/-- The command that shows help. -/
def helpName : Text := "help"

/-- Is the word the name of a command? -/
def isCommandName (text : Text) : Bool :=
  text = helpName || (CommandName.ofText? text).isSome

/-! ## The options of the commands -/

/-- The option that says more about what happens. -/
def verboseRule : OptionRule := ⟨"verbose", some 'v', .flag⟩

/-- The option that shows help. -/
def helpRule : OptionRule := ⟨"help", some 'h', .help⟩

/-- The option that shows the program's version. -/
def versionRule : OptionRule := ⟨"version", some 'V', .version⟩

/-- An option with a text. -/
def textRule (name : String) (letter : Option Char) : OptionRule := ⟨name, letter, .value .text⟩

/-- An option with a path. -/
def pathRule (name : String) (letter : Option Char) : OptionRule := ⟨name, letter, .value .path⟩

/-- What may stand before a command. -/
def rootGrammar : Grammar := ⟨[verboseRule, helpRule, versionRule], .none⟩

/-- What may stand behind a command. -/
def CommandName.grammar : CommandName → Grammar
  | new =>
    ⟨[textRule "application" (some 'a'), textRule "service" (some 's'), textRule "version" none,
      textRule "openapi" none, pathRule "output" (some 'o'), pathRule "config" none,
      ⟨"force", some 'f', .flag⟩, verboseRule, helpRule], .none⟩
  | controllers =>
    ⟨[pathRule "services" none, pathRule "controllers" none, pathRule "config" none, verboseRule,
      helpRule], .many⟩
  | inspect => ⟨[verboseRule, helpRule], .one .path⟩

/-! ## From a reading to a command -/

/-- The value of an option that has to be given. -/
def required (reading : Reading) (name : Text) : Except UsageFault Text :=
  match reading.given.lookup name with
  | some value => .ok value
  | none => .error .missingRequired

/-- The project that the options describe. -/
def projectOptions (reading : Reading) : ProjectOptions :=
  let default : ProjectOptions := {}
  let value (name : Text) (other : Text) : Text := (reading.given.lookup name).getD other
  { application := value "application" default.application
    service := value "service" default.service
    version := value "version" default.version
    document? := reading.given.lookup "openapi".toList
    outputDir := value "output" default.outputDir
    force := reading.has "force" }

/-- The command that was read. -/
def command (name : CommandName) (reading : Reading) : Except UsageFault Command :=
  let config := reading.given.lookup "config".toList
  match name with
  | .new => .ok (.new (projectOptions reading) config)
  | .controllers => do
    let serviceDir ← required reading "services"
    let controllerDir ← required reading "controllers"
    .ok (.controllers serviceDir controllerDir config reading.operands)
  | .inspect =>
    match reading.operands with
    | file :: _ => .ok (.inspect file)
    | [] => .error .missingRequired

/-- Reads the words behind a command's name. -/
def readCommand (verbose : Bool) (name : CommandName) (words : List Text) :
    Except UsageFault Invocation := do
  let reading ← Reading.start.readWords name.grammar words
  .ok ⟨verbose || reading.has "verbose", ← command name reading⟩

/-- Reads the words behind `help`: at most one, the name of a command. -/
def readHelp : List Text → UsageFault
  | [] => .helpRequested
  | [name] => if isCommandName name then .helpRequested else .unknownSubcommand
  | _ => .unknownSubcommand

/-- What is wrong with a command line without a command. -/
def withoutCommand (reading : Reading) : UsageFault :=
  if reading.given.isEmpty then .nothingGiven else .missingSubcommand

/-- Reads a command line from its first word on. -/
def readRoot (reading : Reading) : List Text → Except UsageFault Invocation
  | [] => .error (withoutCommand reading)
  | text :: rest =>
    match Word.ofText text with
    | .separator =>
      match rest with
      | [] => .error (withoutCommand reading)
      | word :: _ =>
        .error (if isCommandName word then .unknownArgument else .unknownSubcommand)
    | .long name value => do readRoot (← reading.readLong rootGrammar name value) rest
    | .letters letters => do readRoot (← reading.readLetters rootGrammar letters) rest
    | .plain text =>
      if text = helpName then .error (readHelp rest)
      else
        match CommandName.ofText? text with
        | some name => readCommand (reading.has "verbose") name rest
        | none => .error .unknownSubcommand

/-- The command line of these words. -/
def read (words : List Text) : Except UsageFault Invocation := readRoot .start words

end ServiceScaffold.CommandLine
