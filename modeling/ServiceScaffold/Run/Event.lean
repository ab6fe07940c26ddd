import ServiceScaffold.Run.Notice

/-!
# Log events

What a run writes to its log. An event has a level, a message and named fields; which events reach
a reader is decided by the level that the log is set to.
-/

namespace ServiceScaffold

/-- How much an event matters, the gravest last. -/
inductive Level
  | trace
  | debug
  | info
  | warn
  | error
  deriving DecidableEq, Repr

namespace Level

/-- The place of a level in the order of gravity. -/
def rank : Level → Nat
  | trace => 0
  | debug => 1
  | info => 2
  | warn => 3
  | error => 4

/-- The name of a level. -/
def label : Level → Text
  | trace => "TRACE"
  | debug => "DEBUG"
  | info => "INFO"
  | warn => "WARN"
  | error => "ERROR"

end Level

/-- The value of a field. -/
inductive FieldValue
  | text (value : Text)
  | number (value : Nat)
  | flag (value : Bool)
  deriving DecidableEq, Repr

/-- Something worth logging. -/
inductive Event
  | methodExtracted (signature : MethodSignature)
  | controllerWritten (service : Path) (routes : Nat) (path : Path)
  | batchFinished (count : Nat)
  | settingsMissing (path : Path)
  | settingsLoading (path : Path)
  | documentRemote (document : Text)
  | documentLoaded (summary : DocumentSummary)
  | generatorRunning (command : Text)
  | sourcesImported (files : Nat) (moduleDir : Path)
  | templateStaged (root : Path)
  | openApiFailed (message : Text)
  | noServiceFiles (dir : Path)
  | fileSkipped (path : Path)
  | scaffoldFinished (root : Path) (controllers : Nat) (openApiFailed : Bool)
  deriving DecidableEq, Repr

namespace Event

/-- The level of an event. -/
def level : Event → Level
  | methodExtracted _ | controllerWritten _ _ _ | documentRemote _ | generatorRunning _ => .debug
  | batchFinished _ | settingsLoading _ | documentLoaded _ | sourcesImported _ _
  | templateStaged _ | scaffoldFinished _ _ _ => .info
  | settingsMissing _ | noServiceFiles _ | fileSkipped _ => .warn
  | openApiFailed _ => .error

/-- The message of an event. -/
def message : Event → Text
  | methodExtracted _ => "extracted public method"
  | controllerWritten _ _ _ => "wrote controller"
  | batchFinished _ => "controller generation finished"
  | settingsMissing _ => "config file not found, falling back"
  | settingsLoading _ => "loading config"
  | documentRemote _ => "remote OpenAPI document, skipping preflight"
  | documentLoaded _ => "loaded OpenAPI document"
  | generatorRunning _ => "running OpenAPI generator"
  | sourcesImported _ _ => "imported generated sources"
  | templateStaged _ => "staged project template"
  | openApiFailed _ => "OpenAPI generation failed"
  | noServiceFiles _ => "no service files found"
  | fileSkipped _ => "skipping existing file"
  | scaffoldFinished _ _ _ => "scaffold finished"

/-- The fields of an event besides its message. -/
def fields : Event → List (Text × FieldValue)
  | methodExtracted signature =>
    [("method", .text signature.name), ("params", .text (Text.quotedList signature.parameters))]
  | controllerWritten service routes path =>
    [("service", .text service), ("routes", .number routes), ("path", .text path)]
  | batchFinished count => [("count", .number count)]
  | settingsMissing path => [("path", .text path)]
  | settingsLoading path => [("path", .text path)]
  | documentRemote document => [("document", .text document)]
  | documentLoaded summary =>
    [("title", .text summary.title), ("version", .text summary.version),
      ("paths", .number summary.pathCount)]
  | generatorRunning command => [("command", .text command)]
  | sourcesImported files moduleDir => [("files", .number files), ("module", .text moduleDir)]
  | templateStaged root => [("root", .text root)]
  | openApiFailed message => [("error", .text message)]
  | noServiceFiles dir => [("dir", .text dir)]
  | fileSkipped path => [("path", .text path)]
  | scaffoldFinished root controllers failed =>
    [("root", .text root), ("controllers", .number controllers), ("openapi_failed", .flag failed)]

end Event

end ServiceScaffold
