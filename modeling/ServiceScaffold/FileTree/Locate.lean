import ServiceScaffold.FileTree.Basic
import ServiceScaffold.FileTree.Fault

/-!
# Following a path

Where a path leads in a tree: the path is taken step by step from the working directory or from the
root, symbolic links on the way are followed, `..` goes up, and every step but the last has to be a
directory. A path may lead to an entry or to a vacancy: a free name in a directory.

A separator at the end of a path asks for a directory, exactly as a `.` there would. Only where a
file is to be created such a name is refused before anything else is said of it.
-/

namespace ServiceScaffold

/-- One step of a path. -/
inductive Step
  | here
  | up
  | name (name : Text)
  /-- A separator behind the last name. -/
  | close
  deriving DecidableEq, Repr

/-- The steps of a path, without a separator at its end. -/
def Path.steps (path : Path) : List Step :=
  (path.splitOn '/').filterMap fun segment =>
    if segment.isEmpty then none
    else if segment = "." then some .here
    else if segment = ".." then some .up
    else some (.name segment)

/-- The separator at the end of a path. -/
def Path.ending (path : Path) : List Step := if path.getLast? = some '/' then [.close] else []

/-- What a path is followed for. -/
inductive Goal
  /-- The entry that bears the path's name, be it a symbolic link. -/
  | itself
  /-- The entry that it leads to. -/
  | target
  /-- The file that it leads to, which may have to be created. -/
  | creation
  deriving DecidableEq, Repr

/-- Where a path leads. -/
inductive Spot
  | entry (location : Location) (entry : Entry)
  | vacancy (location : Location)
  deriving DecidableEq, Repr

namespace FileTree

/-- The longest name in bytes. -/
def longestName : Nat := 255

/-- The longest path in bytes. -/
def longestPath : Nat := 4095

/-- How many symbolic links a path may pass. -/
def mostLinks : Nat := 40

/-- Where the steps of a path start. -/
def startOf (tree : FileTree) (path : Path) : Location :=
  if path.isAbsolute then [] else tree.workingDir

/-- Takes the steps from a place; `onLink` takes the steps of a symbolic link and what is left. -/
def walkWith (tree : FileTree) (goal : Goal)
    (onLink : Location → List Step → Except Fault Spot) :
    Location → List Step → Except Fault Spot
  | place, [] =>
    match tree.entry? place with
    | some entry => .ok (.entry place entry)
    | none => .error .notFound
  | place, .here :: rest => walkWith tree goal onLink place rest
  | place, .close :: rest => walkWith tree goal onLink place rest
  | place, .up :: rest => walkWith tree goal onLink place.dropLast rest
  | place, .name name :: rest =>
    if goal = .creation && rest = [.close] then .error .isADirectory
    else if Text.byteLength name > longestName then .error .nameTooLong
    else
      match tree.entry? (place ++ [name]) with
      | none => if rest.isEmpty then .ok (.vacancy (place ++ [name])) else .error .notFound
      | some .dir => walkWith tree goal onLink (place ++ [name]) rest
      | some (.file content) =>
        if rest.isEmpty then .ok (.entry (place ++ [name]) (.file content))
        else .error .notADirectory
      | some (.link target) =>
        if rest.isEmpty && goal = .itself then .ok (.entry (place ++ [name]) (.link target))
        else
          onLink (if target.isAbsolute then [] else place) (target.steps ++ target.ending ++ rest)

/-- Takes the steps from a place, past at most so many symbolic links. -/
def walk (tree : FileTree) (goal : Goal) :
    Nat → Location → List Step → Except Fault Spot
  | 0 => walkWith tree goal fun _ _ => .error .tooManyLinks
  | links + 1 => walkWith tree goal (walk tree goal links)

/-- Where the steps of a path lead; `ending` is taken after the last step. -/
def spot (tree : FileTree) (goal : Goal) (ending : List Step) (path : Path) :
    Except Fault Spot :=
  if path.contains '\x00' then .error .nulInName
  else if path.isEmpty then .error .notFound
  else if Text.byteLength path > longestPath then .error .nameTooLong
  else walk tree goal mostLinks (tree.startOf path) (path.steps ++ ending)

/-- Where a path leads, the separator at its end taken into account. -/
def locate (tree : FileTree) (goal : Goal) (path : Path) : Except Fault Spot :=
  tree.spot goal path.ending path

/-- The place and the entry that a path leads to, links followed. -/
def find (tree : FileTree) (path : Path) : Except Fault (Location × Entry) :=
  match tree.locate .target path with
  | .ok (.entry location entry) => .ok (location, entry)
  | .ok (.vacancy _) => .error .notFound
  | .error fault => .error fault

/-- The place of the program that a word stands for. A word without a separator is looked for among
the installed programs, of which no tree shows one: at most directories bear its name. -/
def findProgram (tree : FileTree) (word : Text) : Except Fault Location :=
  if word.contains '/' then (tree.find word).map Prod.fst
  else if Text.byteLength word > longestName then .error .nameTooLong
  else if word = "." || word = ".." then .error .denied
  else .error .notFound

/-- Leads the path to an entry? -/
def holds (tree : FileTree) (path : Path) : Bool :=
  match tree.find path with
  | .ok _ => true
  | .error _ => false

/-- Leads the path to a directory? -/
def isDir (tree : FileTree) (path : Path) : Bool :=
  match tree.find path with
  | .ok (_, entry) => entry.isDir
  | .error _ => false

/-- Leads the path to a regular file? -/
def isFile (tree : FileTree) (path : Path) : Bool :=
  match tree.find path with
  | .ok (_, entry) => entry.isFile
  | .error _ => false

/-- The text of the file that a path leads to. -/
def read (tree : FileTree) (path : Path) : Except Fault Text :=
  match tree.find path with
  | .ok (_, .file (.text text)) => .ok text
  | .ok (_, .file (.bytes _)) => .error .notText
  | .ok (_, .dir) => .error .isADirectory
  | .ok (_, .link _) => .error .notFound
  | .error fault => .error fault

/-- The listing of the directory that a path leads to. -/
def list (tree : FileTree) (path : Path) : Except Fault (List (Text × Entry)) :=
  match tree.find path with
  | .ok (location, .dir) => .ok (tree.children location)
  | .ok _ => .error .notADirectory
  | .error fault => .error fault

end FileTree

end ServiceScaffold
