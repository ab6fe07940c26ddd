import ServiceScaffold.Text.Basic

/-!
# Paths

A path is a text in which `/` separates names. Paths are kept as they were written: joining two of
them never alters either, and a message shows a path letter by letter as it was given.

The questions that can be asked of the text alone are answered here: what its last name is, what
stands before it, what the ending of the name is. A separator or a `.` at the end does not count,
a `..` is no name, and a `.` in front is a part of its own.
-/

namespace ServiceScaffold

/-- A path, as it was written. -/
abbrev Path := Text

namespace Path

/-- Starts the path at the root? -/
def isAbsolute : Path → Bool
  | '/' :: _ => true
  | _ => false

/-- The second path seen from the first; an absolute second path stands for itself. -/
def join (base path : Path) : Path :=
  if isAbsolute path then path
  else if base.isEmpty || base.getLast? = some '/' then base ++ path
  else base ++ '/' :: path

/-- The path after a list of names was joined to it one by one. -/
def joinAll (base : Path) (names : List Text) : Path := names.foldl join base

/-- The parts between separators, without the root. -/
def segments (path : Path) : List Text :=
  (if isAbsolute path then path.tail else path).splitOn '/'

/-- A part that leads nowhere: an empty one or a `.`. -/
def isIdle (segment : Text) : Bool := segment.isEmpty || segment = "."

/-- The parts without the idle ones at the end; a relative path keeps a `.` that stands alone. -/
def withoutIdleEnd (path : Path) (parts : List Text) : List Text :=
  match (parts.reverse.dropWhile isIdle).reverse with
  | [] => if !isAbsolute path && parts.head? = some "." then ["."] else []
  | kept => kept

/-- The last name of a path; the root, the empty path and paths that end in `.` or `..` have
none. -/
def fileName? (path : Path) : Option Text :=
  match (withoutIdleEnd path (segments path)).getLast? with
  | some last => if last = "." || last = ".." then none else some last
  | none => none

/-- The path without its last part; the root and the empty path have no parent. -/
def parent? (path : Path) : Option Path :=
  match withoutIdleEnd path (segments path) with
  | [] => none
  | parts =>
    let before := List.intercalate "/" (withoutIdleEnd path parts.dropLast)
    some (if isAbsolute path then '/' :: before else before)

/-- The ending of a file name: what follows its last dot, unless the name starts with that dot. -/
def extension? (path : Path) : Option Text := do
  let name ← fileName? path
  let (reversedEnd, reversedStem) ← Text.splitFirst? '.' name.reverse
  if reversedStem.isEmpty then none else some reversedEnd.reverse

/-- The path, its parent, and so on up to the last one that has a name: neither the empty path nor
the root is among them. -/
def lineage (path : Path) : List Path := go path.length path
where
  /-- A parent is shorter than its path, so the length of the path is enough fuel. -/
  go : Nat → Path → List Path
    | 0, _ => []
    | fuel + 1, path =>
      if path.isEmpty then [] else
      match parent? path with
      | none => []
      | some parent => path :: go fuel parent

end Path

end ServiceScaffold
