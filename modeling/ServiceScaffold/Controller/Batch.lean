import ServiceScaffold.Controller.Basic
import ServiceScaffold.Run.Basic

/-!
# Batches of controllers

Generates the controllers of a list of service files, one after another. A batch stops at the first
file that it cannot handle; the controllers written before that stay.
-/

namespace ServiceScaffold

namespace Controller

/-- Logs the methods that were read out of a source. -/
def logMethods : List MethodSignature → Run Unit
  | [] => pure ()
  | signature :: rest => do
    Run.log (.methodExtracted signature)
    logMethods rest

/-- The methods of a source, each of which is logged. -/
def readMethods (source : Text) : Run MethodMap := do
  let methods := extractMethods source
  logMethods methods.signatures
  pure methods

/-- Generates one controller and gives the path that it was written to. -/
def generate (serviceDir controllerDir : Path) (name : Path) : Run Path := do
  match ServiceFile.ofPath? name with
  | none => Run.fail (.unsupportedName name)
  | some file =>
    let sourcePath := Path.join serviceDir file.fileName
    let source ← Run.look (.readService sourcePath) fun tree => tree.read sourcePath
    let methods ← readMethods source
    let controller := ofMethods file methods
    let target := Path.join controllerDir controller.fileName
    Run.change (.writeController target) (Change.writeFile target (.text controller.render))
    Run.log (.controllerWritten file.fileName controller.routes.length target)
    Run.tell (.controllerGenerated controller.fileName)
    pure target

/-- Generates the controllers of the names, without the summary. -/
def generateEach (serviceDir controllerDir : Path) : List Path → Run (List Path)
  | [] => pure []
  | name :: rest => do
    let target ← generate serviceDir controllerDir name
    let targets ← generateEach serviceDir controllerDir rest
    pure (target :: targets)

/-- Generates the controllers of the names and gives the paths that they were written to. -/
def generateBatch (serviceDir controllerDir : Path) (names : List Path) : Run (List Path) := do
  let targets ← generateEach serviceDir controllerDir names
  Run.log (.batchFinished targets.length)
  Run.tell (.batchFinished names.length)
  pure targets

end Controller

end ServiceScaffold
