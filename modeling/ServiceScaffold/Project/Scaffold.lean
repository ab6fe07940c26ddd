import ServiceScaffold.Controller.Batch
import ServiceScaffold.OpenApi.Command
import ServiceScaffold.OpenApi.Document
import ServiceScaffold.OpenApi.Import
import ServiceScaffold.Project.Documents
import ServiceScaffold.Project.Options
import ServiceScaffold.Project.Sources
import ServiceScaffold.Service.Discovery

/-!
# Creating a project

The whole of a project: its directories, its fixed files, the module of its service, and the
controllers that the module lists. With a document the services are generated from it and get a
controller each; without one the project starts with one controller. If the generation from the
document fails, the project is created all the same, with an empty module, and the report says why.
-/

namespace ServiceScaffold

namespace Project

/-- A file to be written and what it holds. -/
structure PlannedFile where
  path : Path
  content : Text
  deriving DecidableEq, Repr

/-- The files that every project has, in the order in which they are written. -/
def plannedFiles (options : ProjectOptions) (root : Path) : List PlannedFile :=
  let inRoot (name : String) (content : Text) : PlannedFile := ⟨Path.join root name, content⟩
  let inSource (name : String) (content : Text) : PlannedFile :=
    ⟨Path.join (Path.join root "src") name, content⟩
  [ inRoot "package.json" (Json.document (package options.projectName options.version)),
    inRoot "tsconfig.json" (Json.document compilerSettings),
    inRoot "nest-cli.json" (Json.document toolSettings),
    inRoot ".prettierrc" (Json.document formatterSettings),
    inRoot ".eslintrc.json" (Json.document linterSettings),
    inRoot ".gitignore" gitignore,
    inRoot ".editorconfig" editorconfig,
    inRoot "jest.config.js" jestConfig,
    inRoot "README.md" (readme options.projectName options.service options.version),
    inSource "main.ts" mainFile,
    inSource "app.module.ts" (appModule options.service options.serviceClass) ]

/-- Writes planned files one after another; a file that is there already is skipped unless `force`
is on. -/
def writePlanned (force : Bool) : List PlannedFile → Run Unit
  | [] => pure ()
  | file :: rest => do
    let _ ← Run.writeUnlessThere file.path file.content force
    writePlanned force rest

/-- Writes the files that every project has. -/
def stage (options : ProjectOptions) (root : Path) : Run Unit :=
  writePlanned options.force (plannedFiles options root)

/-- What a service's module lists, and the controllers that were written for it. -/
structure ModuleContents where
  controllers : List ModuleImport
  providers : List ModuleImport
  written : List Path
  deriving DecidableEq, Repr

namespace ModuleContents

/-- A module that lists nothing. -/
def empty : ModuleContents := ⟨[], [], []⟩

end ModuleContents

/-- The import of the controller that belongs to a service file. -/
def controllerImport (file : ServiceFile) : ModuleImport :=
  ⟨file.controllerType, "./controllers/" ++ file.baseName ++ ".controller"⟩

/-- The import of the class of a service file. -/
def providerImport (file : ServiceFile) : ModuleImport :=
  ⟨file.serviceType, "./services/" ++ file.logicalName⟩

/-- The module of these service files, whose controllers are at these paths. -/
def moduleOf (names : List Text) (written : List Path) : ModuleContents :=
  let files := names.filterMap ServiceFile.ofPath?
  ⟨files.map controllerImport, files.map providerImport, written⟩

/-- Writes the controller that a project without a document starts with. -/
def writeStarter (options : ProjectOptions) : Run ModuleContents := do
  let className := options.serviceClass ++ "Controller"
  let fileName := options.service ++ controllerSuffix
  let path := Path.join options.controllerDir fileName
  let content := starterController options.service className options.service
  if ← Run.writeUnlessThere path content options.force then
    Run.tell (.stubGenerated fileName)
  pure
    { controllers := [⟨className, "./controllers/" ++ options.service ++ ".controller"⟩]
      providers := []
      written := [path] }

/-- The directory under the project's own that the generator writes into. -/
def generatedDirName : Text := "__openapi-temp__"

/-- Writes a controller for each of the services that were imported. -/
def writeControllers (filter : ServiceFilter) (serviceDir controllerDir : Path) :
    Run ModuleContents := do
  let names ← filter.discover serviceDir
  if names.isEmpty then
    Run.log (.noServiceFiles serviceDir)
    pure .empty
  else
    Run.createDir controllerDir
    let written ← Controller.generateBatch serviceDir controllerDir names
    pure (moduleOf names written)

/-- Generates the services of a document, imports them, and writes their controllers. -/
def generateFromDocument (host : Host) (settings : Settings) (options : ProjectOptions)
    (document : Text) : Run ModuleContents := do
  if let some summary ← OpenApi.preflight host.wording document then
    Run.tell (.documentChosen summary)
  Run.tell .generatorStarted
  let generatedDir := Path.join options.root generatedDirName
  (settings.generator.commandFor host document generatedDir).run host
  let imported ← ImportedSources.fetch generatedDir options.moduleDir
  if ← Run.removeDirAllIfThere (Path.join options.root "dist") then
    Run.tell .distRemoved
  writeControllers settings.services imported.serviceDir options.controllerDir

/-- What became of a project. -/
structure Report where
  root : Path
  /-- The controllers, whether they were generated or are the one to start with. -/
  controllers : List Path
  /-- Why the generation from the document failed, if it did. -/
  openApiFailure? : Option Failure
  deriving DecidableEq, Repr

/-- What is said of the failed generation from the document: what was being done and all its causes. -/
def Report.openApiError? (report : Report) : Option Text := report.openApiFailure?.map Failure.message

/-- The contents of the service's module, and why they could not be generated if they could not. -/
def writeContents (host : Host) (settings : Settings) (options : ProjectOptions) :
    Run (ModuleContents × Option Failure) := do
  match options.document? with
  | none => pure (← writeStarter options, none)
  | some document =>
    match ← Run.attempt (generateFromDocument host settings options document) with
    | .ok contents =>
      Run.tell .openApiSucceeded
      pure (contents, none)
    | .error failure =>
      Run.log (.openApiFailed failure.message)
      Run.tell (.openApiFailed failure.message)
      pure (.empty, some failure)

/-- Creates a project. -/
def scaffold (host : Host) (settings : Settings) (options : ProjectOptions) : Run Report := do
  if let some failure := options.fault? then Run.fail failure
  Run.createDir options.controllerDir
  Run.createDir options.serviceDir
  stage options options.root
  Run.log (.templateStaged options.root)
  let (contents, openApiFailure?) ← writeContents host settings options
  let _ ← Run.writeUnlessThere (Path.join options.moduleDir (options.service ++ ".module.ts"))
    (serviceModule options.serviceClass contents.controllers contents.providers) true
  let _ ← Run.removeDirIfEmpty (Path.join options.moduleDir "model")
  let _ ← Run.removeDirIfEmpty options.serviceDir
  Run.tell (.projectGenerated options.root)
  pure ⟨options.root, contents.written, openApiFailure?⟩

end Project

end ServiceScaffold
