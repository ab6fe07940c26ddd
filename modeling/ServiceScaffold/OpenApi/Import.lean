import ServiceScaffold.Run.Files

/-!
# Importing generated sources

What the generator wrote into its own directory moves into the module of the service: the models
and the services with all they hold, and two loose files. The services' index is not kept, and the
generator's directory is removed at the end.
-/

namespace ServiceScaffold

/-- Where imported sources are, and how many files were copied. -/
structure ImportedSources where
  serviceDir : Path
  modelDir : Path
  filesCopied : Nat
  deriving DecidableEq, Repr

namespace ImportedSources

/-- The loose files that are imported. -/
def looseFiles : List Text := ["configuration.ts", "variables.ts"]

/-- The index of the services, which is not kept. -/
def indexFile : Text := "api.ts"

/-- Copies the files of a list that are there, and counts them. -/
def copyLoose (source target : Path) : List Text → Run Nat
  | [] => pure 0
  | name :: rest => do
    let copied ← Run.copyFileIfThere (Path.join source name) (Path.join target name)
    let others ← copyLoose source target rest
    pure ((if copied then 1 else 0) + others)

/-- Imports the sources that were generated into a directory. -/
def fetch (generatedDir moduleDir : Path) : Run ImportedSources := do
  let modelDir := Path.join moduleDir "model"
  let serviceDir := Path.join moduleDir "services"
  let models ← Run.copyDir (Path.join generatedDir "model") modelDir
  let services ← Run.copyDir (Path.join generatedDir "api") serviceDir
  let loose ← copyLoose generatedDir moduleDir looseFiles
  let _ ← Run.removeFileIfThere (Path.join serviceDir indexFile)
  let _ ← Run.removeDirAllIfThere generatedDir
  Run.log (.sourcesImported (models + services + loose) moduleDir)
  pure ⟨serviceDir, modelDir, models + services + loose⟩

end ImportedSources

end ServiceScaffold
