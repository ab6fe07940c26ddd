import ServiceScaffold.FileTree.Locate

/-!
# Changing a file tree

The operations that change a tree. Each of them either does what its name says or stops with a
fault; a fault may leave a part done (the upper directories of a chain, for instance), so an
operation gives back the tree in both cases.
-/

namespace ServiceScaffold

/-- An operation on a file tree. -/
abbrev Change (α : Type) := EStateM Fault FileTree α

namespace Change

/-- Writes a file, in place of one that is there already. -/
def writeFile (path : Path) (content : Content) : Change Unit := fun tree =>
  match tree.locate .creation path with
  | .error fault => .error fault tree
  | .ok (.entry _ .dir) => .error .isADirectory tree
  | .ok (.entry location _) => .ok () (tree.put location (.file content))
  | .ok (.vacancy location) => .ok () (tree.put location (.file content))

/-- Creates one directory at a free name. -/
def makeDir (path : Path) : Change Unit := fun tree =>
  match tree.spot .itself [] path with
  | .error fault => .error fault tree
  | .ok (.entry _ _) => .error .occupied tree
  | .ok (.vacancy location) => .ok () (tree.put location .dir)

/-- Creates the first of the paths, after the others if it cannot be created before them. A
directory that is there already is as good as a new one. -/
def makeLineage : List Path → Change Unit
  | [] => pure ()
  | path :: upper => fun tree =>
    match makeDir path tree with
    | .ok () tree => .ok () tree
    | .error .notFound _ =>
      match makeLineage upper tree with
      | .error fault tree => .error fault tree
      | .ok () tree =>
        match makeDir path tree with
        | .ok () tree => .ok () tree
        | .error fault tree =>
          if tree.isDir path then .ok () tree else .error fault tree
    | .error fault _ =>
      if tree.isDir path then .ok () tree else .error fault tree

/-- Creates a directory with every directory above it that is missing. -/
def makeDirAll (path : Path) : Change Unit := makeLineage path.lineage

/-- Copies what a file holds into another file, which is emptied first: a file copied onto itself
is empty afterwards. -/
def copyFile (source target : Path) : Change Unit := fun tree =>
  match tree.find source with
  | .error fault => .error fault tree
  | .ok (location, .file _) =>
    match writeFile target (.text []) tree with
    | .error fault tree => .error fault tree
    | .ok () tree =>
      match tree.entry? location with
      | some (.file content) => writeFile target content tree
      | _ => .ok () tree
  | .ok _ => .error .notRegular tree

/-- Removes a file, or a symbolic link and not what it leads to. -/
def removeFile (path : Path) : Change Unit := fun tree =>
  match tree.locate .itself path with
  | .error fault => .error fault tree
  | .ok (.entry _ .dir) => .error .isADirectory tree
  | .ok (.entry location _) => .ok () (tree.erase location)
  | .ok (.vacancy _) => .error .notFound tree

/-- Removes a directory that holds nothing. It has to be given by its name. -/
def removeDir (path : Path) : Change Unit := fun tree =>
  match tree.spot .itself [] path with
  | .error fault => .error fault tree
  | .ok (.vacancy _) => .error .notFound tree
  | .ok (.entry location .dir) =>
    match path.steps.getLast? with
    | none => .error .busy tree
    | some .here => .error .invalid tree
    | some .up => .error .notEmpty tree
    | some _ =>
      if (tree.children location).isEmpty then .ok () (tree.erase location)
      else .error .notEmpty tree
  | .ok (.entry _ _) => .error .notADirectory tree

/-- Removes a directory with all it holds, or a symbolic link and not what it leads to. A path that
leads nowhere without what the directory held is as good as removed. -/
def removeDirAll (path : Path) : Change Unit := fun tree =>
  match tree.locate .itself path with
  | .error fault => .error fault tree
  | .ok (.vacancy _) => .error .notFound tree
  | .ok (.entry location .dir) =>
    match removeDir path (tree.eraseInside location) with
    | .error .notFound tree => .ok () tree
    | result => result
  | .ok (.entry location (.link _)) => .ok () (tree.erase location)
  | .ok (.entry _ (.file _)) => .error .notADirectory tree

end Change

end ServiceScaffold
