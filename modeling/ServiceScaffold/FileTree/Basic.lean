import ServiceScaffold.Path

/-!
# File trees

A file tree is the part of a disk that a run can see. It is kept as a list of entries by their
place, and not as nested directories, so that a statement about one place mentions no other: the
entry at a place is `entry?`, and each operation says at which places that changes.

The order of the list is the order in which a directory is listed. It carries no meaning; whatever
the library reports in an order sorts first.

The names of a place are Unicode texts. An entry of the disk with another name, and all that is inside
it, belongs to no tree: no path that the library is given leads to it, and whatever looks through a
directory leaves it out.
-/

namespace ServiceScaffold

/-- The names that lead from the root to a place. -/
abbrev Location := List Text

/-- What a file holds: a text in UTF-8, or bytes that are no such text. -/
inductive Content
  | text (characters : Text)
  | bytes (values : List UInt8)
  deriving DecidableEq, Repr, Inhabited

/-- The content that bytes are: a text if they are one in UTF-8. -/
def Content.ofBytes (bytes : ByteArray) : Content :=
  match String.fromUTF8? bytes with
  | some string => .text string.toList
  | none => .bytes bytes.toList

/-- What stands at a place. -/
inductive Entry
  | dir
  | file (content : Content)
  | link (target : Path)
  deriving DecidableEq, Repr, Inhabited

/-- Is the entry a directory itself? -/
def Entry.isDir : Entry → Bool
  | .dir => true
  | _ => false

/-- Is the entry a regular file itself? -/
def Entry.isFile : Entry → Bool
  | .file _ => true
  | _ => false

namespace Location

/-- The name of a place directly inside a directory. -/
def childName? : Location → Location → Option Text
  | [], [name] => some name
  | a :: dir, b :: place => if a = b then childName? dir place else none
  | _, _ => none

/-- Names in the order of their bytes, a place before the places inside it. -/
def ble : Location → Location → Bool
  | [], _ => true
  | _ :: _, [] => false
  | a :: as, b :: bs => if a = b then ble as bs else Text.ble a b

end Location

/-- The entries of a disk by their place, and the directory that relative paths start from. -/
structure FileTree where
  workingDir : Location
  entries : List (Location × Entry)
  deriving DecidableEq, Repr, Inhabited

namespace FileTree

/-- A tree with nothing but the root. -/
def empty : FileTree := ⟨[], []⟩

/-- The entry at a place; the root is always a directory. -/
def entry? (tree : FileTree) : Location → Option Entry
  | [] => some .dir
  | location => tree.entries.lookup location

/-- The entries with one of them replaced, or added at the end if its place was vacant. -/
def putEntry (location : Location) (entry : Entry) :
    List (Location × Entry) → List (Location × Entry)
  | [] => [(location, entry)]
  | (place, old) :: rest =>
    if place = location then (location, entry) :: rest
    else (place, old) :: putEntry location entry rest

/-- The tree with this entry at this place. -/
def put (tree : FileTree) (location : Location) (entry : Entry) : FileTree :=
  { tree with entries := putEntry location entry tree.entries }

/-- The tree with nothing at this place. -/
def erase (tree : FileTree) (location : Location) : FileTree :=
  { tree with entries := tree.entries.filter fun pair => pair.1 ≠ location }

/-- The tree with nothing inside this place. -/
def eraseInside (tree : FileTree) (location : Location) : FileTree :=
  { tree with
    entries := tree.entries.filter fun pair =>
      !location.isPrefixOf pair.1 || pair.1 = location }

/-- The names directly inside a directory and what they name, in the order of the listing. -/
def children (tree : FileTree) (dir : Location) : List (Text × Entry) :=
  tree.entries.filterMap fun pair =>
    (Location.childName? dir pair.1).map fun name => (name, pair.2)

/-- The places inside a directory, seen from it: a directory before what it holds, neighbours by
name. -/
def inside (tree : FileTree) (dir : Location) : List (Location × Entry) :=
  (tree.entries.filterMap fun pair =>
    match dir.isPrefixOf? pair.1 with
    | some [] => none
    | some place => some (place, pair.2)
    | none => none).mergeSort fun a b => Location.ble a.1 b.1

/-- Every entry stands in a directory, and no place has two. -/
structure WellFormed (tree : FileTree) : Prop where
  nodup : (tree.entries.map Prod.fst).Nodup
  rooted : ∀ pair ∈ tree.entries, pair.1 ≠ []
  inDir : ∀ pair ∈ tree.entries, tree.entry? pair.1.dropLast = some .dir

/-- No entry is a symbolic link. -/
def LinkFree (tree : FileTree) : Prop :=
  ∀ pair ∈ tree.entries, ∀ target, pair.2 ≠ .link target

end FileTree

end ServiceScaffold
