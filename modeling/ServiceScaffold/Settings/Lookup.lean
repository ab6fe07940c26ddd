import ServiceScaffold.Run.Basic
import ServiceScaffold.Settings.Reader

/-!
# Finding the settings of a run

A run takes its settings from the file that it was told to, if there is one, or else from the
settings file beside its OpenAPI document, or else they are the defaults.
-/

namespace ServiceScaffold

namespace Settings

/-- The settings file at a path; nothing if there is no such file. -/
def load (wording : ParserWording) (path : Path) : Run (Option Settings) := do
  if (← Run.tree).holds path then
    let content ← Run.look (.readSettings path) fun tree => tree.read path
    match read? content with
    | some settings => pure (some settings)
    | none => Run.fail (.parseSettings path (wording.settings content))
  else pure none

/-- The path of the settings file beside a document, if there are both. -/
def besideDocument? (tree : FileTree) (document : Path) : Option Path :=
  if tree.isFile document then
    match Path.parent? document with
    | some parent =>
      let path := Path.join parent settingsFileName
      if tree.holds path then some path else none
    | none => none
  else none

/-- The path of the settings file: the given one if it leads to something, or else the one beside
the document. -/
def resolve (given document : Option Path) : Run (Option Path) := do
  let tree ← Run.tree
  let fallback := document.bind (besideDocument? tree)
  match given with
  | some path =>
    if tree.holds path then pure (some path)
    else
      Run.log (.settingsMissing path)
      pure fallback
  | none => pure fallback

/-- The settings of a run. -/
def effective (wording : ParserWording) (given document : Option Path) : Run Settings := do
  match ← resolve given document with
  | some path =>
    Run.log (.settingsLoading path)
    pure ((← load wording path).getD {})
  | none => pure {}

end Settings

end ServiceScaffold
