import ServiceScaffold.Project.Scaffold
import ServiceScaffold.Proofs.Controller.Effect
import ServiceScaffold.Proofs.OpenApi.Import

/-! # The stages of a project

A project is prepared, its services are imported, their controllers are written, and the module is
finished. Nothing before the controllers makes a symbolic link or a name that is not ordinary, unless
the generator does.
-/

namespace ServiceScaffold

theorem FileTree.kept_plain : Change.Kept FileTree.Plain :=
  ⟨Change.keeps_makeDirAll, Change.keeps_writeFile, Change.keeps_copyFile, Change.keeps_removeFile,
    Change.keeps_removeDir, Change.keeps_removeDirAll⟩

/-- No program that is started takes the property away from the tree. -/
def Host.Keeps (host : Host) (holds : FileTree → Prop) : Prop :=
  ∀ program arguments tree launched, host.launch program arguments tree = .ok launched →
    holds tree → holds launched.tree

theorem Run.ite_bind {α β : Type} {condition : Prop} [Decidable condition] (first second : Run α)
    (next : α → Run β) :
    (if condition then first else second) >>= next =
      if condition then first >>= next else second >>= next := by
  split <;> rfl

namespace Project

variable {host : Host} {settings : Settings} {options : ProjectOptions} {document : Text}
variable {holds : FileTree → Prop}

/-- The directories and the fixed files. -/
def layOut (options : ProjectOptions) : Run Unit := do
  Run.createDir options.controllerDir
  Run.createDir options.serviceDir
  stage options options.root
  Run.log (.templateStaged options.root)

/-- What is done before the contents of the module. -/
def prepare (options : ProjectOptions) : Run Unit := do
  if let some failure := options.fault? then Run.fail failure
  layOut options

/-- The generation of the services. -/
def generateServices (host : Host) (settings : Settings) (options : ProjectOptions)
    (document : Text) : Run ImportedSources := do
  Run.tell .generatorStarted
  let generatedDir := Path.join options.root generatedDirName
  (settings.generator.commandFor host document generatedDir).run host
  let imported ← ImportedSources.fetch generatedDir options.moduleDir
  if ← Run.removeDirAllIfThere (Path.join options.root "dist") then
    Run.tell .distRemoved
  pure imported

/-- What is done with a document up to the discovery of its services. -/
def importServices (host : Host) (settings : Settings) (options : ProjectOptions)
    (document : Text) : Run ImportedSources := do
  if let some summary ← OpenApi.preflight host.wording document then
    Run.tell (.documentChosen summary)
  generateServices host settings options document

/-- The command that starts the generator. -/
def generatorCommand (host : Host) (settings : Settings) (options : ProjectOptions) (document : Text) :
    GeneratorCommand :=
  settings.generator.commandFor host document (Path.join options.root generatedDirName)

/-- What is done with a document before the generator is started. -/
def announce (wording : ParserWording) (document : Text) : Run Unit := do
  if let some summary ← OpenApi.preflight wording document then
    Run.tell (.documentChosen summary)
  Run.tell .generatorStarted

/-- What is done with a document up to the end of the generator. -/
def runGenerator (host : Host) (settings : Settings) (options : ProjectOptions) (document : Text) :
    Run Unit := do
  announce host.wording document
  (generatorCommand host settings options document).run host

/-- What is done with what the generator wrote, up to the discovery of its services. -/
def importGenerated (options : ProjectOptions) : Run ImportedSources := do
  let imported ← ImportedSources.fetch (Path.join options.root generatedDirName) options.moduleDir
  if ← Run.removeDirAllIfThere (Path.join options.root "dist") then
    Run.tell .distRemoved
  pure imported

/-- The file of the module. -/
def modulePath (options : ProjectOptions) : Path :=
  Path.join options.moduleDir (options.service ++ ".module.ts")

/-- What is done once the contents of the module are known. -/
def finish (options : ProjectOptions) (contents : ModuleContents) : Run Unit := do
  let _ ← Run.writeUnlessThere (modulePath options)
    (serviceModule options.serviceClass contents.controllers contents.providers) true
  let _ ← Run.removeDirIfEmpty (Path.join options.moduleDir "model")
  let _ ← Run.removeDirIfEmpty options.serviceDir
  Run.tell (.projectGenerated options.root)

theorem scaffold_eq (host : Host) (settings : Settings) (options : ProjectOptions) :
    scaffold host settings options =
      (do
        prepare options
        let (contents, failure?) ← writeContents host settings options
        finish options contents
        pure ⟨options.root, contents.written, failure?⟩) := by
  unfold scaffold prepare layOut finish modulePath
  cases options.fault? <;> simp only [bind_assoc]

theorem generateFromDocument_eq (host : Host) (settings : Settings) (options : ProjectOptions)
    (document : Text) :
    generateFromDocument host settings options document =
      (do
        let imported ← importServices host settings options document
        writeControllers settings.services imported.serviceDir options.controllerDir) := by
  unfold generateFromDocument importServices generateServices
  rw [bind_assoc]
  refine bind_congr fun summary => ?_
  cases summary <;> simp only [bind_assoc, pure_bind, Run.ite_bind]

theorem importServices_eq (host : Host) (settings : Settings) (options : ProjectOptions)
    (document : Text) :
    importServices host settings options document =
      (do
        runGenerator host settings options document
        importGenerated options) := by
  unfold importServices generateServices runGenerator announce importGenerated generatorCommand
  rw [bind_assoc, bind_assoc]
  refine bind_congr fun summary => ?_
  cases summary <;> simp only [bind_assoc]

/-! ## What the stages keep -/

theorem keeps_writePlanned {force : Bool} {files : List PlannedFile}
    (hfiles : ∀ file ∈ files, (Run.writeUnlessThere file.path file.content force).Keeps holds) :
    (writePlanned force files).Keeps holds := by
  induction files with
  | nil => exact Run.keeps_pure _
  | cons file files ih =>
      obtain ⟨hfile, hrest⟩ := List.forall_mem_cons.mp hfiles
      exact hfile.bind fun _ => ih hrest

theorem keeps_stage (hfiles : ∀ file ∈ plannedFiles options options.root,
      (Run.writeUnlessThere file.path file.content options.force).Keeps holds) :
    (stage options options.root).Keeps holds := keeps_writePlanned hfiles

theorem keeps_layOut (hcontrollers : (Run.createDir options.controllerDir).Keeps holds)
    (hservices : (Run.createDir options.serviceDir).Keeps holds)
    (hstage : (stage options options.root).Keeps holds) : (layOut options).Keeps holds :=
  hcontrollers.bind fun _ => hservices.bind fun _ => hstage.bind fun _ => Run.keeps_log _

/-- Options that are refused change nothing. -/
theorem keeps_prepare_of_layOut (hlayOut : options.fault? = none → (layOut options).Keeps holds) :
    (prepare options).Keeps holds := by
  unfold prepare
  cases hfault : options.fault? with
  | none => exact hlayOut hfault
  | some failure => exact fun world hworld => hworld

theorem keeps_preflight (wording : ParserWording) (document : Text) :
    (OpenApi.preflight wording document).Keeps holds := by
  unfold OpenApi.preflight
  split
  · exact (Run.keeps_log _).bind fun _ => Run.keeps_pure _
  · refine (Run.keeps_look _ _).bind fun content => ?_
    split
    · exact Run.keeps_fail _
    · exact (Run.keeps_log _).bind fun _ => Run.keeps_pure _

theorem keeps_command {command : GeneratorCommand} (hlaunch : ∀ tree launched,
      host.launch command.program command.arguments tree = .ok launched →
        holds tree → holds launched.tree) :
    (command.run host).Keeps holds := by
  refine (Run.keeps_log _).bind fun _ => Run.Keeps.bind ?_ fun status => ?_
  · intro world hworld
    unfold Run.launch
    split
    next launched hlaunched => exact hlaunch _ launched hlaunched hworld
    next => exact hworld
  · split
    · exact Run.keeps_pure _
    · exact Run.keeps_fail _

theorem keeps_announce (wording : ParserWording) (document : Text) :
    (announce wording document).Keeps holds := by
  refine (keeps_preflight wording document).bind fun summary => ?_
  split
  · exact (Run.keeps_tell _).bind fun _ => Run.keeps_tell _
  · exact Run.keeps_tell _

theorem keeps_runGenerator
    (hcommand : ((generatorCommand host settings options document).run host).Keeps holds) :
    (runGenerator host settings options document).Keeps holds :=
  (keeps_announce host.wording document).bind fun _ => hcommand

theorem keeps_fetch {generatedDir moduleDir : Path}
    (hmodels : (Run.copyDir (Path.join generatedDir "model") (Path.join moduleDir "model")).Keeps holds)
    (hservices : (Run.copyDir (Path.join generatedDir "api")
      (Path.join moduleDir "services")).Keeps holds)
    (hloose : ∀ name ∈ ImportedSources.looseFiles, (Run.copyFileIfThere (Path.join generatedDir name)
      (Path.join moduleDir name)).Keeps holds)
    (hindex : (Run.removeFileIfThere (Path.join (Path.join moduleDir "services")
      ImportedSources.indexFile)).Keeps holds)
    (hgenerated : (Run.removeDirAllIfThere generatedDir).Keeps holds) :
    (ImportedSources.fetch generatedDir moduleDir).Keeps holds := by
  rw [ImportedSources.fetch_eq]
  refine (ImportedSources.keeps_bring hmodels hservices hloose hindex).bind fun count => ?_
  exact hgenerated.bind fun _ => (Run.keeps_log _).bind fun _ => Run.keeps_pure _

theorem keeps_importGenerated
    (hfetch : (ImportedSources.fetch (Path.join options.root generatedDirName)
      options.moduleDir).Keeps holds)
    (hdist : (Run.removeDirAllIfThere (Path.join options.root "dist")).Keeps holds) :
    (importGenerated options).Keeps holds := by
  refine hfetch.bind fun imported => hdist.bind fun removed => ?_
  split
  · exact (Run.keeps_tell _).bind fun _ => Run.keeps_pure _
  · exact Run.keeps_pure _

theorem keeps_finish
    (hmodule : ∀ content, (Run.writeUnlessThere (modulePath options) content true).Keeps holds)
    (hmodel : (Run.removeDirIfEmpty (Path.join options.moduleDir "model")).Keeps holds)
    (hservices : (Run.removeDirIfEmpty options.serviceDir).Keeps holds) (contents : ModuleContents) :
    (finish options contents).Keeps holds :=
  (hmodule _).bind fun _ => hmodel.bind fun _ => hservices.bind fun _ => Run.keeps_tell _

end Project

namespace Change.Kept

variable {holds : FileTree → Prop} (hkept : Change.Kept holds)

include hkept

theorem fetch (generatedDir moduleDir : Path) :
    (ImportedSources.fetch generatedDir moduleDir).Keeps holds :=
  Project.keeps_fetch (hkept.copyDir _ _) (hkept.copyDir _ _)
    (fun _ _ => Run.keeps_copyFileIfThere (hkept.copyFile _ _))
    (Run.keeps_removeFileIfThere (hkept.removeFile _))
    (Run.keeps_removeDirAllIfThere (hkept.removeDirAll _))

theorem finish (options : ProjectOptions) (contents : Project.ModuleContents) :
    (Project.finish options contents).Keeps holds :=
  Project.keeps_finish (fun _ => hkept.writeUnlessThere _ _ _)
    (Run.keeps_removeDirIfEmpty (hkept.removeDir _)) (Run.keeps_removeDirIfEmpty (hkept.removeDir _)) _

end Change.Kept

namespace Project

variable {host : Host} {settings : Settings} {options : ProjectOptions} {document : Text}
variable {holds : FileTree → Prop}

theorem keeps_prepare (hkept : Change.Kept holds) (options : ProjectOptions) :
    (prepare options).Keeps holds := by
  refine keeps_prepare_of_layOut fun _ => ?_
  refine keeps_layOut ?_ ?_ (keeps_stage fun _ _ => hkept.writeUnlessThere _ _ _)
  all_goals exact Run.keeps_createDir (hkept.makeDirAll _)

theorem keeps_importServices (hkept : Change.Kept holds) (hhost : host.Keeps holds)
    (settings : Settings) (options : ProjectOptions) (document : Text) :
    (importServices host settings options document).Keeps holds := by
  rw [importServices_eq]
  refine (keeps_runGenerator (keeps_command (hhost _ _))).bind fun _ => ?_
  exact keeps_importGenerated (hkept.fetch _ _)
    (Run.keeps_removeDirAllIfThere (hkept.removeDirAll _))

/-! ## Stages that succeed -/

variable {world after : World} {contents : ModuleContents} {report : Report}

theorem fault?_of_prepare_ok (hok : prepare options world = .ok () after) :
    options.fault? = none := by
  cases hfault : options.fault? with
  | none => rfl
  | some failure =>
      rw [prepare, hfault] at hok
      cases hok

/-- Either a program cannot be started and nothing changes, or what it does is all that changes. -/
theorem command_cases (command : GeneratorCommand) (host : Host) (world : World) :
    (∃ fault after, host.launch command.program command.arguments world.tree = .error fault ∧
      after.tree = world.tree ∧ command.run host world = .error (.launch command.program fault) after) ∨
    ∃ launched after, host.launch command.program command.arguments world.tree = .ok launched ∧
      after.tree = launched.tree ∧ command.run host world =
        if launched.status.isSuccess then .ok () after else .error (.generator launched.status) after := by
  obtain ⟨logged, hlog, htree⟩ : ∃ logged : World,
      Run.log (.generatorRunning command.shown) world = .ok () logged ∧ logged.tree = world.tree :=
    ⟨_, rfl, rfl⟩
  unfold GeneratorCommand.run
  rw [Run.bind_of_ok hlog, ← htree]
  cases hlaunch : host.launch command.program command.arguments logged.tree with
  | error fault =>
      refine Or.inl ⟨fault, logged, rfl, rfl, Run.bind_of_error ?_ _⟩
      rw [Run.launch, hlaunch]
  | ok launched =>
      refine Or.inr ⟨launched, ⟨launched.tree, if launched.output.isEmpty then logged.printed
        else logged.printed ++ [.raw launched.output], logged.logged⟩, rfl, rfl, ?_⟩
      rw [Run.bind_of_ok (by rw [Run.launch, hlaunch])]
      split <;> rfl

/-- In this world the document is accepted, and the generator is started and comes to this. -/
structure Started (host : Host) (settings : Settings) (options : ProjectOptions) (document : Text)
    (world : World) (launched : Launched) : Prop where
  announced : ∃ ready, announce host.wording document world = .ok () ready
  launch : host.launch (generatorCommand host settings options document).program
    (generatorCommand host settings options document).arguments world.tree = .ok launched

/-- Either the generator is not started and nothing changes, or what it does is all that changes. -/
theorem runGenerator_cases (host : Host) (settings : Settings) (options : ProjectOptions)
    (document : Text) (world : World) :
    (∃ failure after, runGenerator host settings options document world = .error failure after ∧
      after.tree = world.tree) ∨
    ∃ launched after, Started host settings options document world launched ∧
      after.tree = launched.tree ∧ runGenerator host settings options document world =
        if launched.status.isSuccess then .ok () after else .error (.generator launched.status) after := by
  have hkeeps : (announce host.wording document).Keeps fun tree => tree = world.tree :=
    keeps_announce host.wording document
  have hannounced := hkeeps world rfl
  unfold runGenerator
  cases hready : announce host.wording document world with
  | error failure after =>
      rw [hready] at hannounced
      exact Or.inl ⟨failure, after, Run.bind_of_error hready _, hannounced⟩
  | ok value ready =>
      rw [hready] at hannounced
      change ready.tree = world.tree at hannounced
      rw [Run.bind_of_ok hready]
      rcases command_cases (generatorCommand host settings options document) host ready with
        ⟨fault, after, -, hafter, hrun⟩ | ⟨launched, after, hlaunch, hafter, hrun⟩
      · exact Or.inl ⟨_, after, hrun, hafter.trans hannounced⟩
      · exact Or.inr ⟨launched, after, ⟨⟨ready, hready⟩, hannounced ▸ hlaunch⟩, hafter, hrun⟩

theorem runGenerator_ok (hok : runGenerator host settings options document world = .ok () after) :
    ∃ launched, Started host settings options document world launched ∧
      launched.status.isSuccess = true ∧ after.tree = launched.tree := by
  rcases runGenerator_cases host settings options document world with
    ⟨failure, failed, hrun, -⟩ | ⟨launched, ended, hstarted, htree, hrun⟩
  · rw [hok] at hrun
    cases hrun
  · rw [hok] at hrun
    split at hrun
    next hsuccess =>
      cases hrun
      exact ⟨launched, hstarted, hsuccess, htree⟩
    next => cases hrun

/-- With a document the contents are what was generated from it, or nothing and there was a failure. -/
theorem writeContents_cases {failure? : Option Failure} (hdocument : options.document? = some document)
    (hok : writeContents host settings options world = .ok (contents, failure?) after) :
    (failure? = none ∧ ∃ generated, generateFromDocument host settings options document world =
        .ok contents generated ∧ after.tree = generated.tree) ∨
      ∃ failure, failure? = some failure ∧ contents = .empty := by
  rw [writeContents, hdocument] at hok
  obtain ⟨outcome, generated, hattempt, hok⟩ := Run.bind_eq_ok_iff.mp hok
  cases outcome with
  | ok value =>
      obtain ⟨⟨⟩, told, htell, hok⟩ := Run.bind_eq_ok_iff.mp hok
      obtain ⟨heq, rfl⟩ := Run.pure_eq_ok_iff.mp hok
      cases heq
      cases htell
      exact Or.inl ⟨rfl, generated, Run.run_of_attempt_ok hattempt, rfl⟩
  | error failure =>
      obtain ⟨⟨⟩, logged, -, hok⟩ := Run.bind_eq_ok_iff.mp hok
      obtain ⟨⟨⟩, told, -, hok⟩ := Run.bind_eq_ok_iff.mp hok
      obtain ⟨heq, -⟩ := Run.pure_eq_ok_iff.mp hok
      cases heq
      exact Or.inr ⟨failure, rfl, rfl⟩

/-- A project from a document that succeeds, stage by stage. -/
theorem scaffold_ok (hdocument : options.document? = some document)
    (hok : scaffold host settings options world = .ok report after)
    (hreport : report.openApiFailure? = none) :
    ∃ staged imported middle contents generated told,
      prepare options world = .ok () staged ∧
      importServices host settings options document staged = .ok imported middle ∧
      writeControllers settings.services imported.serviceDir options.controllerDir middle =
        .ok contents generated ∧
      told.tree = generated.tree ∧ finish options contents told = .ok () after ∧
      report.controllers = contents.written := by
  rw [scaffold_eq] at hok
  obtain ⟨⟨⟩, staged, hprepare, hok⟩ := Run.bind_eq_ok_iff.mp hok
  obtain ⟨⟨contents, failure?⟩, told, hcontents, hok⟩ := Run.bind_eq_ok_iff.mp hok
  obtain ⟨⟨⟩, finished, hfinish, hok⟩ := Run.bind_eq_ok_iff.mp hok
  obtain ⟨rfl, rfl⟩ := Run.pure_eq_ok_iff.mp hok
  rcases writeContents_cases hdocument hcontents with
    ⟨-, generated, hgenerate, htold⟩ | ⟨failure, hfailure, -⟩
  · rw [generateFromDocument_eq] at hgenerate
    obtain ⟨imported, middle, himport, hwrite⟩ := Run.bind_eq_ok_iff.mp hgenerate
    exact ⟨staged, imported, middle, contents, generated, told, hprepare, himport, hwrite, htold,
      hfinish, rfl⟩
  · cases hreport.symm.trans hfailure

theorem returns_fetch (generatedDir moduleDir : Path) :
    (ImportedSources.fetch generatedDir moduleDir).Returns fun imported =>
      imported.serviceDir = Path.join moduleDir "services" := by
  refine .of_next fun models => .of_next fun services => .of_next fun loose => ?_
  refine .of_next fun index => .of_next fun generated => .of_next fun _ => ?_
  exact Run.returns_pure rfl

theorem returns_importServices (host : Host) (settings : Settings) (options : ProjectOptions)
    (document : Text) :
    (importServices host settings options document).Returns fun imported =>
      imported.serviceDir = options.serviceDir := by
  have hgenerate : (generateServices host settings options document).Returns fun imported =>
      imported.serviceDir = options.serviceDir := by
    refine .of_next fun _ => .of_next fun _ => (returns_fetch _ _).bind fun imported hdir => ?_
    refine .of_next fun removed => ?_
    split
    · exact .of_next fun _ => Run.returns_pure hdir
    · exact Run.returns_pure hdir
  refine .of_next fun summary => ?_
  split
  · exact .of_next fun _ => hgenerate
  · exact hgenerate

/-- With services there is a batch, and the module lists them; without there is nothing. -/
theorem writeControllers_ok {filter : ServiceFilter} {serviceDir controllerDir : Path}
    (hok : writeControllers filter serviceDir controllerDir world = .ok contents after) :
    ∃ names found, filter.discover serviceDir world = .ok names found ∧
      (names = [] ∧ contents = .empty ∧ after.tree = found.tree ∨
        ∃ created written, Run.createDir controllerDir found = .ok () created ∧
          Controller.generateBatch serviceDir controllerDir names created = .ok written after ∧
          contents = moduleOf names written) := by
  obtain ⟨names, found, hdiscover, hok⟩ := Run.bind_eq_ok_iff.mp hok
  refine ⟨names, found, hdiscover, ?_⟩
  split at hok
  next hempty =>
    obtain ⟨⟨⟩, logged, hlog, hok⟩ := Run.bind_eq_ok_iff.mp hok
    obtain ⟨rfl, rfl⟩ := Run.pure_eq_ok_iff.mp hok
    cases hlog
    exact Or.inl ⟨List.isEmpty_iff.mp hempty, rfl, rfl⟩
  next =>
    obtain ⟨⟨⟩, created, hcreate, hok⟩ := Run.bind_eq_ok_iff.mp hok
    obtain ⟨written, generated, hbatch, hok⟩ := Run.bind_eq_ok_iff.mp hok
    obtain ⟨rfl, rfl⟩ := Run.pure_eq_ok_iff.mp hok
    exact Or.inr ⟨created, written, hcreate, hbatch, rfl⟩

end Project

end ServiceScaffold
