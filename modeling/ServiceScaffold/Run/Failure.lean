import ServiceScaffold.FileTree.Fault
import ServiceScaffold.Path
import ServiceScaffold.Text.Quoted

/-!
# Failures

Why a run stops. A failure says what was being done and, where the file system is to blame, by
which fault; where a text could not be parsed it has what the parser says of it. Its message is what
was being done, then a colon and the cause.
-/

namespace ServiceScaffold

/-- How a program ended. -/
inductive ExitStatus
  | code (value : Nat)
  | signal (number : Nat)
  deriving DecidableEq, Repr

namespace ExitStatus

/-- The names of the signals, from the first on. -/
def signalNames : List Text :=
  ["SIGHUP", "SIGINT", "SIGQUIT", "SIGILL", "SIGTRAP", "SIGABRT", "SIGBUS", "SIGFPE", "SIGKILL",
    "SIGUSR1", "SIGSEGV", "SIGUSR2", "SIGPIPE", "SIGALRM", "SIGTERM", "SIGSTKFLT", "SIGCHLD",
    "SIGCONT", "SIGSTOP", "SIGTSTP", "SIGTTIN", "SIGTTOU", "SIGURG", "SIGXCPU", "SIGXFSZ",
    "SIGVTALRM", "SIGPROF", "SIGWINCH", "SIGIO", "SIGPWR", "SIGSYS"]

/-- Did the program end by itself and with the code of success? -/
def isSuccess : ExitStatus → Bool
  | code value => value = 0
  | signal _ => false

/-- The wording of a status. -/
def message : ExitStatus → Text
  | code value => "exit status: " ++ Text.ofNat value
  | signal number =>
    match signalNames[number - 1]? with
    | some name => "signal: " ++ Text.ofNat number ++ " (" ++ name ++ ")"
    | none => "signal: " ++ Text.ofNat number

end ExitStatus

/-- The formats of an OpenAPI document. -/
inductive DocumentFormat
  | yaml
  | json
  deriving DecidableEq, Repr

/-- The name of a format. -/
def DocumentFormat.label : DocumentFormat → Text
  | yaml => "YAML"
  | json => "JSON"

/-- Why a run stops. -/
inductive Failure
  /-- The path is not that of a service file. -/
  | unsupportedName (path : Path)
  /-- The service file cannot be read. -/
  | readService (path : Path) (fault : Fault)
  /-- The controller cannot be written. -/
  | writeController (path : Path) (fault : Fault)
  | read (path : Path) (fault : Fault)
  | create (path : Path) (fault : Fault)
  | copy (source target : Path) (fault : Fault)
  | remove (path : Path) (fault : Fault)
  /-- A file of the project cannot be written. -/
  | write (fault : Fault)
  | readSettings (path : Path) (fault : Fault)
  | parseSettings (path : Path) (cause : Text)
  | readDocument (path : Path) (fault : Fault)
  | parseDocument (format : DocumentFormat) (path : Path) (cause : Text)
  /-- The generator cannot be started. -/
  | launch (program : Text) (fault : Fault)
  /-- The generator ended without success. -/
  | generator (status : ExitStatus)
  /-- A name of the project is blank. -/
  | blankName (label : Text)
  /-- A name of the project is not one segment of a path. -/
  | notSegment (label value : Text)
  /-- The path has no last name. -/
  | noFileName (path : Path)
  deriving DecidableEq, Repr

namespace Failure

/-- What was being done; without any such text the fault speaks for itself. -/
def context? : Failure → Option Text
  | unsupportedName path =>
    some ("unsupported service file name: " ++ path ++ " (expected a `.ts` source file)")
  | readService path _ => some ("failed to read service file " ++ path)
  | writeController path _ => some ("failed to write controller " ++ path)
  | read path _ => some ("Failed to read " ++ path)
  | create path _ => some ("Failed to create " ++ path)
  | copy source target _ => some ("Failed to copy " ++ source ++ " to " ++ target)
  | remove path _ => some ("Failed to remove " ++ path)
  | write _ => none
  | readSettings path _ => some ("Failed to read config: " ++ path)
  | parseSettings path _ => some ("Failed to parse config: " ++ path)
  | readDocument path _ => some ("Failed to read OpenAPI document: " ++ path)
  | parseDocument format path _ =>
    some ("Failed to parse OpenAPI " ++ format.label ++ ": " ++ path)
  | launch program _ => some ("Failed to launch " ++ program)
  | generator status => some ("OpenAPI generator failed with " ++ status.message)
  | blankName label => some (label ++ " name must not be empty")
  | notSegment label value =>
    some (label ++ " name must be a single path segment: " ++ Text.quoted value)
  | noFileName path => some ("Invalid file name: " ++ path)

/-- The fault of the file system behind a failure. -/
def fault? : Failure → Option Fault
  | readService _ fault | writeController _ fault | read _ fault | create _ fault
  | copy _ _ fault | remove _ fault | write fault | readSettings _ fault | readDocument _ fault
  | launch _ fault => some fault
  | unsupportedName _ | parseSettings _ _ | parseDocument _ _ _ | generator _ | blankName _
  | notSegment _ _ | noFileName _ => none

/-- What a parser said, if it is behind the failure. -/
def parserCause? : Failure → Option Text
  | parseSettings _ cause | parseDocument _ _ cause => some cause
  | _ => none

/-- What was being done and why it could not be done, outermost first. -/
def chain (failure : Failure) : List Text :=
  failure.context?.toList ++ (failure.fault?.map Fault.message).toList ++
    failure.parserCause?.toList

/-- The failure on one line. -/
def message (failure : Failure) : Text := List.intercalate ": " failure.chain

end Failure

end ServiceScaffold
