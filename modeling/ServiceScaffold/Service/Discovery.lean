import ServiceScaffold.Run.Basic
import ServiceScaffold.Settings.Basic

/-!
# Finding service files

The service files of a directory: the regular files directly in it whose names the filter accepts,
in the order of their bytes. Names are texts: an entry whose name on the disk is no Unicode text is
skipped, and so it stands in no file tree and is never listed here.
-/

namespace ServiceScaffold

namespace ServiceFilter

/-- The accepted names of a listing, in the order of their bytes. -/
def select (filter : ServiceFilter) (listing : List (Text × Entry)) : List Text :=
  Text.inOrder ((listing.filter fun pair => pair.2.isFile && filter.accepts pair.1).map Prod.fst)

/-- The service files of a directory; none if there is no such directory. -/
def discover (filter : ServiceFilter) (dir : Path) : Run (List Text) := do
  if (← Run.tree).isDir dir then
    let listing ← Run.look (.read dir) fun tree => tree.list dir
    pure (filter.select listing)
  else pure []

end ServiceFilter

end ServiceScaffold
