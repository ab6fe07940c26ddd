import ServiceScaffold.CommandLine.Command
import ServiceScaffold.Log.Settings
import ServiceScaffold.Project.Scaffold
import ServiceScaffold.Settings.Lookup

/-!
# Executing commands

What each command does, and what a run of the program comes to: its exit code, what it prints, what
it reports if it fails, and what it logs.
-/

namespace ServiceScaffold.CommandLine

/-! ## Commands -/

/-- Creates a project with the settings found for it. -/
def executeNew (host : Host) (options : ProjectOptions) (config : Option Path) : Run Unit := do
  let settings ← Settings.effective host.wording config options.document?
  let report ← Project.scaffold host settings options
  Run.log (.scaffoldFinished report.root report.controllers.length report.openApiFailure?.isSome)

/-- The service files that were named, or else those that are found in the directory. -/
def chosenFiles (wording : ParserWording) (serviceDir : Path) (config : Option Path)
    (files : List Text) : Run (List Text) := do
  if files.isEmpty then
    let settings ← Settings.effective wording config none
    settings.services.discover serviceDir
  else pure files

/-- Generates the controllers of service files. -/
def executeControllers (wording : ParserWording) (serviceDir controllerDir : Path)
    (config : Option Path) (files : List Text) : Run Unit := do
  let names ← chosenFiles wording serviceDir config files
  if names.isEmpty then Run.tell (.noServiceFiles serviceDir)
  else
    Run.createDir controllerDir
    let _ ← Controller.generateBatch serviceDir controllerDir names
    pure ()

/-- Tells what each method is called with. -/
def tellMethods : List MethodSignature → Run Unit
  | [] => pure ()
  | signature :: rest => do
    Run.tell (.methodInspected signature)
    tellMethods rest

/-- Shows the methods of a service file. -/
def executeInspect (path : Path) : Run Unit := do
  match Path.fileName? path with
  | none => Run.fail (.noFileName path)
  | some name =>
    match ServiceFile.ofPath? name with
    | none => Run.fail (.unsupportedName name)
    | some file =>
      let source ← Run.look (.read path) fun tree => tree.read path
      let methods ← Controller.readMethods source
      Run.tell (.serviceInspected file)
      if methods.isEmpty then Run.tell .noPublicMethods
      tellMethods methods.signatures

/-- Executes a command. -/
def execute (host : Host) : Command → Run Unit
  | .new options config => executeNew host options config
  | .controllers serviceDir controllerDir config files =>
    executeControllers host.wording serviceDir controllerDir config files
  | .inspect file => executeInspect file

/-! ## The program -/

/-- What a run of the program comes to. -/
structure Outcome where
  exitCode : Nat
  tree : FileTree
  printed : List Output
  /-- What is reported if a command failed. -/
  report : Option Text
  /-- Why the command line was refused, if it was. -/
  usage : Option UsageFault
  /-- The events that reached the log. -/
  events : List Event

/-- The program's name and version, as it tells them. -/
def versionLine : Text := "nestgen 0.1.0-alpha.1"

/-- The lines of a text, each on a line of its own behind four blanks. -/
def indentedLines (text : Text) : Text :=
  (text.splitOn '\n').flatMap fun line => "\n    " ++ line

/-- The report on a failure: what was being done, and why it could not be done. -/
def failureReport (failure : Failure) : Text :=
  match failure.chain with
  | [] => "Error: "
  | [only] => "Error: " ++ only
  | outermost :: causes =>
    "Error: " ++ outermost ++ "\n\nCaused by:" ++ causes.flatMap indentedLines

/-- The exit code of a command line that gives no command: asking for help or for the version is no
mistake. -/
def usageExitCode : UsageFault → Nat
  | .helpRequested | .versionRequested => 0
  | _ => 2

/-- What is printed if a command line gives no command; help texts are left to whoever shows
them. -/
def usageOutput : UsageFault → List Output
  | .versionRequested => [.raw (versionLine ++ "\n")]
  | _ => []

/-- Runs the program with the words of a command line. -/
def runProgram (host : Host) (words : List Text) (tree : FileTree) : Outcome :=
  match read words with
  | .error fault => ⟨usageExitCode fault, tree, usageOutput fault, none, some fault, []⟩
  | .ok invocation =>
    let least := Log.threshold (Log.Settings.ofRun invocation.verbose host.environment) host.environment
    match execute host invocation.command (World.ofTree tree) with
    | .ok () world => ⟨0, world.tree, world.printed, none, none, Log.select least world.logged⟩
    | .error failure world =>
      ⟨1, world.tree, world.printed, some (failureReport failure), none,
        Log.select least world.logged⟩

end ServiceScaffold.CommandLine
