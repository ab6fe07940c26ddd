import ServiceScaffold.CommandLine.Execute
import ServiceScaffold.Json.Printer

/-!
# The program

The command line over a real disk. The program reads the working directory with all it holds into a
file tree, runs the command on that, and then carries out on the disk what changed in the tree.
A symbolic link is seen as what it leads to.

The program starts no other program: a generator is found to be missing, and a project is created
without what would have been generated.
-/

namespace ServiceScaffold.Main

/-! ## The disk -/

/-- The path of a place on the disk. -/
def diskPath (place : Location) : String :=
  String.ofList ('/' :: List.intercalate ['/'] place)

/-- Reads what a directory holds; what cannot be read is left out. -/
partial def readInside (place : Location) : IO (List (Location × Entry)) := do
  let dir ← IO.FS.realPath (diskPath place)
  let mut entries := []
  for item in ← dir.readDir do
    let inner := place ++ [item.fileName.toList]
    try
      if ← item.path.isDir then
        let held ← readInside inner
        entries := entries ++ (inner, Entry.dir) :: held
      else
        let bytes ← IO.FS.readBinFile (diskPath inner)
        entries := entries ++ [(inner, Entry.file (Content.ofBytes bytes))]
    catch _ => pure ()
  pure entries

/-- Reads the working directory with all it holds, and the directories around it. -/
def readTree : IO FileTree := do
  let dir ← IO.currentDir
  let place := Path.segments dir.toString.toList
  let around := (List.range place.length).map fun n => (place.take (n + 1), Entry.dir)
  pure ⟨place, around ++ (← readInside place)⟩

/-- Removes from the disk what is in the first tree and not in the second. -/
def removeMissing (before after : FileTree) : IO Unit := do
  for (place, entry) in (before.inside []).reverse do
    if after.entry? place ≠ some entry && (entry.isDir || (after.entry? place).isNone) then
      if entry.isDir then IO.FS.removeDir (diskPath place)
      else IO.FS.removeFile (diskPath place)

/-- Writes to the disk what is in the second tree and not so in the first. -/
def writeAdded (before after : FileTree) : IO Unit := do
  for (place, entry) in after.inside [] do
    if before.entry? place ≠ some entry then
      match entry with
      | .dir => IO.FS.createDirAll (diskPath place)
      | .file (.text text) => IO.FS.writeFile (diskPath place) (String.ofList text)
      | .file (.bytes bytes) => IO.FS.writeBinFile (diskPath place) ⟨bytes.toArray⟩
      | .link _ => pure ()

/-! ## The surroundings -/

/-- The environment variables that the program reads. -/
def knownVariables : List Text :=
  [generatorVariable, Log.Settings.levelVariable, Log.Settings.formatVariable,
    Log.Settings.placeVariable, Log.Settings.filterVariable]

/-- The environment variables that are set, of those that the program reads. -/
def readEnvironment : List Text → IO (List (Text × Text))
  | [] => pure []
  | name :: rest => do
    let others ← readEnvironment rest
    match ← IO.getEnv (String.ofList name) with
    | some value => pure ((name, value.toList) :: others)
    | none => pure others

/-- The surroundings of a run with these environment variables. -/
def hostOf (settled : List (Text × Text)) : Host where
  environment name := settled.lookup name
  launch _ _ _ := .error .notFound
  wording := .plain

/-! ## The log -/

/-- The value of a field of an event. -/
def fieldValue : FieldValue → Json
  | .text value => .text value
  | .number value => .number (.integer value)
  | .flag value => .bool value

/-- The line of an event. -/
def eventLine (format : Log.Format) (event : Event) : Text :=
  let fields := event.fields.map fun field => (field.1, fieldValue field.2)
  match format with
  | .json =>
    Json.written 0 (.object [
      ("level", .text event.level.label),
      ("fields", .object (("message", .text event.message) :: fields))])
  | .pretty =>
    let shown := fields.map fun field => field.1 ++ '=' :: Json.written 0 field.2
    List.intercalate [' '] (event.level.label :: event.message :: shown)

/-! ## Running -/

/-- How the program is called. -/
def usageLines : List Text :=
  ["Usage: nestgen [-v] new [-a NAME] [-s NAME] [--version VERSION] [--openapi DOCUMENT]",
    "                   [-o DIR] [--config FILE] [-f]",
    "       nestgen [-v] controllers --services DIR --controllers DIR [--config FILE] [FILE ...]",
    "       nestgen [-v] inspect FILE",
    "       nestgen --version | --help"]

/-- Says how the program is called, unless only its version was asked for. -/
def showUsage : CommandLine.UsageFault → IO Unit
  | .versionRequested => pure ()
  | .helpRequested => for line in usageLines do IO.println (String.ofList line)
  | _ => for line in usageLines do IO.eprintln (String.ofList line)

/-- Runs the program with its arguments. -/
def run (arguments : List String) : IO UInt32 := do
  let words := arguments.map String.toList
  let host := hostOf (← readEnvironment knownVariables)
  let before ← readTree
  let outcome := CommandLine.runProgram host words before
  removeMissing before outcome.tree
  writeAdded before outcome.tree
  let output ← IO.getStdout
  let errors ← IO.getStderr
  for piece in outcome.printed do
    output.putStr (String.ofList piece.text)
  let format := (Log.Settings.ofEnvironment host.environment).format
  for event in outcome.events do
    errors.putStrLn (String.ofList (eventLine format event))
  if let some report := outcome.report then
    errors.putStrLn (String.ofList report)
  if let some fault := outcome.usage then showUsage fault
  pure (UInt32.ofNat outcome.exitCode)

end ServiceScaffold.Main

/-- Runs the command line. -/
def main (arguments : List String) : IO UInt32 := ServiceScaffold.Main.run arguments
