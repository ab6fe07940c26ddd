import ServiceScaffold.Run.Basic

/-!
# Files of a run

The operations on files that a run is made of. Each is conditional: it does nothing where there is
nothing to do, and says whether there was.
-/

namespace ServiceScaffold

namespace Run

/-- Creates a directory with every directory above it that is missing. -/
def createDir (path : Path) : Run Unit :=
  change (.create path) (Change.makeDirAll path)

/-- Writes a file and the directories above it, unless it is there already and `force` is off. Says
whether it was written. -/
def writeUnlessThere (path : Path) (content : Text) (force : Bool) : Run Bool := do
  if (← tree).holds path && !force then
    log (.fileSkipped path)
    tell (.fileSkipped path)
    pure false
  else
    match Path.parent? path with
    | some parent => change .write (Change.makeDirAll parent)
    | none => pure ()
    change .write (Change.writeFile path (.text content))
    pure true

/-- Copies one entry of a directory: a directory is created, a file and what a symbolic link leads
to are copied. Says how many files that were. -/
def copyEntry (source target : Path) : Location × Entry → Run Nat
  | (place, .dir) => do
    let copy := Path.join target (List.intercalate "/" place)
    change (.create copy) (Change.makeDirAll copy)
    pure 0
  | (place, _) => do
    let held := Path.joinAll source place
    let copy := Path.join target (List.intercalate "/" place)
    change (.copy held copy) (Change.copyFile held copy)
    pure 1

/-- Copies entries one after another and counts the files. -/
def copyEntries (source target : Path) : List (Location × Entry) → Run Nat
  | [] => pure 0
  | entry :: rest => do
    let first ← copyEntry source target entry
    let others ← copyEntries source target rest
    pure (first + others)

/-- Copies a directory with all it holds into another one, over what is there. Counts the files. The
other directory is there before the first one is listed. A symbolic link in place of the directory is
one entry and is not entered. -/
def copyDir (source target : Path) : Run Nat := do
  if (← tree).isDir source then
    match (← tree).locate .itself source with
    | .ok (.entry location .dir) =>
      let top ← copyEntry source target ([], .dir)
      let others ← copyEntries source target ((← tree).inside location)
      pure (top + others)
    | .ok (.entry _ entry) => copyEntry source target ([], entry)
    | _ => pure 0
  else pure 0

/-- Copies a file if there is one. -/
def copyFileIfThere (source target : Path) : Run Bool := do
  if (← tree).isFile source then
    change (.copy source target) (Change.copyFile source target)
    pure true
  else pure false

/-- Removes a file if there is one. -/
def removeFileIfThere (path : Path) : Run Bool := do
  if (← tree).isFile path then
    change (.remove path) (Change.removeFile path)
    pure true
  else pure false

/-- Removes a directory with all it holds if there is one. -/
def removeDirAllIfThere (path : Path) : Run Bool := do
  if (← tree).isDir path then
    change (.remove path) (Change.removeDirAll path)
    pure true
  else pure false

/-- Removes a directory if there is one and it holds nothing. -/
def removeDirIfEmpty (path : Path) : Run Bool := do
  if (← tree).isDir path then
    let listing ← look (.read path) fun tree => tree.list path
    if listing.isEmpty then
      change (.remove path) (Change.removeDir path)
      pure true
    else pure false
  else pure false

end Run

end ServiceScaffold
