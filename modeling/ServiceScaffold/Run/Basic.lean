import ServiceScaffold.FileTree.Change
import ServiceScaffold.Run.Event
import ServiceScaffold.Run.Failure

/-!
# Runs

A run is a computation over a world: the file tree, what has been printed so far, and the events
logged so far. It ends with a value or with a failure, and in both cases the world is the one it
left behind: a run that fails keeps what it did before.

What a run may ask of its surroundings and cannot change comes as a `Host`: the environment
variables, what happens when a program is started, and how the parsers word what they refuse. Which
texts they refuse is fixed here; the wording is left to them.
-/

namespace ServiceScaffold

/-- A piece of what a run prints: a notice, or the raw output of a program that it started. -/
inductive Output
  | notice (notice : Notice)
  | raw (text : Text)
  deriving DecidableEq, Repr

/-- The text of a piece of output; a notice ends its line. -/
def Output.text : Output → Text
  | notice line => line.text ++ "\n"
  | raw text => text

/-- What a run can see and change. -/
structure World where
  tree : FileTree
  /-- What was printed, the oldest first. -/
  printed : List Output
  /-- What was logged, the oldest first. -/
  logged : List Event
  deriving DecidableEq, Repr

/-- A world in which nothing was printed or logged yet. -/
def World.ofTree (tree : FileTree) : World := ⟨tree, [], []⟩

/-- What starting a program comes to: a tree, an output and a status. -/
structure Launched where
  tree : FileTree
  output : Text
  status : ExitStatus

/-- What the parsers say of a text that they refuse. -/
structure ParserWording where
  /-- What is said of a text that is no settings file. -/
  settings : Text → Text
  /-- What is said of a text that is no document in a format. -/
  document : DocumentFormat → Text → Text

/-- Parsers that say of every text the same. -/
def ParserWording.plain : ParserWording where
  settings _ := "the settings of a run were expected"
  document format _ := "an OpenAPI document in " ++ format.label ++ " was expected"

/-- What a run may ask of its surroundings and cannot change. -/
structure Host where
  /-- The value of an environment variable, if it is set. -/
  environment : Text → Option Text
  /-- What happens when a program is started with arguments. -/
  launch : Text → List Text → FileTree → Except Fault Launched
  /-- What the parsers say of a text that they refuse. -/
  wording : ParserWording

/-- A computation over a world that may fail. -/
abbrev Run (α : Type) := EStateM Failure World α

namespace Run

/-- The tree as it is now. -/
def tree : Run FileTree := fun world => .ok world.tree world

/-- Prints a notice. -/
def tell (notice : Notice) : Run Unit := fun world =>
  .ok () { world with printed := world.printed ++ [.notice notice] }

/-- Logs an event. -/
def log (event : Event) : Run Unit := fun world =>
  .ok () { world with logged := world.logged ++ [event] }

/-- Stops with a failure. -/
def fail {α : Type} (failure : Failure) : Run α := fun world => .error failure world

/-- Changes the tree; a fault becomes the failure that `blame` makes of it. -/
def change {α : Type} (blame : Fault → Failure) (operation : Change α) : Run α := fun world =>
  match operation world.tree with
  | .ok value tree => .ok value { world with tree := tree }
  | .error fault tree => .error (blame fault) { world with tree := tree }

/-- Looks at the tree; a fault becomes the failure that `blame` makes of it. -/
def look {α : Type} (blame : Fault → Failure) (question : FileTree → Except Fault α) : Run α :=
  fun world =>
    match question world.tree with
    | .ok value => .ok value world
    | .error fault => .error (blame fault) world

/-- Starts a program and waits for its end. -/
def launch (host : Host) (program : Text) (arguments : List Text)
    (blame : Fault → Failure) : Run ExitStatus := fun world =>
  match host.launch program arguments world.tree with
  | .ok launched =>
    .ok launched.status
      { world with
        tree := launched.tree
        printed :=
          if launched.output.isEmpty then world.printed
          else world.printed ++ [.raw launched.output] }
  | .error fault => .error (blame fault) world

/-- The value of a run, or its failure; what it did stays done in both cases. -/
def attempt {α : Type} (run : Run α) : Run (Except Failure α) := fun world =>
  match run world with
  | .ok value world => .ok (.ok value) world
  | .error failure world => .ok (.error failure) world

end Run

end ServiceScaffold
