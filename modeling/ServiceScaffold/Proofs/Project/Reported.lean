import ServiceScaffold.Proofs.Controller.Directory
import ServiceScaffold.Proofs.Project.History
import ServiceScaffold.Proofs.Project.Starter

/-! # What a run reports

A run that succeeds reports the controllers that it wrote, in the order in which it wrote them, but for
two cases. Without a document it reports the controller to start with even if it left it alone. And
when a batch fails at a service after others, the controllers that it wrote are not reported.
-/

namespace ServiceScaffold

open FileTree

/-- No file changes where a directory is copied elsewhere. -/
theorem Run.keeps_copyDir_sparesFiles {base : FileTree} {source target : Path} {kept : Location → Prop}
    (hkept : ∀ place, base.placeOf target <+: place → ¬ kept place) :
    (Run.copyDir source target).Keeps (Confined (.sparesFiles kept) base) := by
  have htrans := Permit.transitive_sparesFiles kept
  have hcopy {entry : Location × Entry} (hentry : ∀ name ∈ entry.1, Path.IsSegment name) :
      (Run.copyEntry source target entry).Keeps (Confined (.sparesFiles kept) base) := by
    have hpath : Path.Below target entry.1 (Run.copyPath target entry.1) :=
      (Path.Below.refl target).join_intercalate hentry
    refine Run.keeps_copyEntry (Change.confined_of_creates htrans fun _ _ _ _ _ _ => rfl) fun held => ?_
    refine Change.confined_of_copies htrans (fun old content _ hplace => absurd hplace (hkept _ ?_)) held
    rw [placeOf_below hpath]
    exact List.prefix_append _ _
  exact Run.keeps_copyDir (fun _ => hcopy (List.forall_mem_nil _)) fun tree htree _ _ hentry =>
    hcopy (Run.isSegment_of_mem_inside htree.plain hentry)

theorem Controller.GeneratesEach.plain {serviceDir controllerDir : Path} {names : List Path}
    {tree last : FileTree} {steps : List (ServiceFile × Text)}
    (hsteps : GeneratesEach serviceDir controllerDir tree last names steps) (hplain : tree.Plain) :
    last.Plain := by
  induction hsteps with
  | nil => exact hplain
  | cons hstep _ ih => exact ih ((Change.keeps_writeFile _ _).of_ok hstep.written hplain)

namespace Project

variable {host : Host} {settings : Settings} {options : ProjectOptions} {document : Text}
variable {world staged told after : World} {report : Report} {contents : ModuleContents}
variable {base tree before middle last : FileTree} {place : Location} {failure? : Option Failure}
variable {writes : List (Path × Text)}

/-! ## The controllers' directory -/

/-- Is the place the controllers' directory or inside it? -/
def InControllers (tree : FileTree) (options : ProjectOptions) (place : Location) : Prop :=
  tree.placeOf options.controllerDir <+: place

/-- Nothing beside the controllers' directory is inside it. -/
theorem not_inControllers_of_inside {name : Text} (hname : Path.IsSegment name)
    (hne : name ≠ "controllers") (hinside : base.placeOf (Path.join options.moduleDir name) <+: place) :
    ¬ InControllers base options place := by
  intro hcontrollers
  rw [InControllers, placeOf_controllerDir] at hcontrollers
  rw [placeOf_join hname] at hinside
  have hsame := List.prefix_of_prefix_length_le hinside hcontrollers (by simp)
  rw [List.prefix_append_right_inj] at hsame
  exact hne (List.cons_prefix_cons.mp hsame).1

theorem not_inControllers_of_removed (hfault : options.fault? = none) {name : Text}
    (hname : name ∈ ["dist".toList, generatedDirName])
    (hinside : base.placeOf (Path.join options.root name) <+: place) :
    ¬ InControllers base options place := by
  have hordinary : ∀ name ∈ ["dist".toList, generatedDirName], Path.IsSegment name ∧ name ≠ "src" := by
    decide
  obtain ⟨hsegment, hsource⟩ := hordinary name hname
  intro hcontrollers
  rw [InControllers, placeOf_controllerDir, placeOf_below (ProjectOptions.below_moduleDir hfault),
    List.append_assoc] at hcontrollers
  rw [placeOf_join hsegment] at hinside
  have hsame := List.prefix_of_prefix_length_le hinside hcontrollers (by simp)
  rw [List.prefix_append_right_inj] at hsame
  exact hsource (List.cons_prefix_cons.mp hsame).1

theorem importGenerated_sparesControllers (hfault : options.fault? = none) :
    (importGenerated options).Keeps (Confined (.sparesFiles (InControllers base options)) base) := by
  have htrans := Permit.transitive_sparesFiles (InControllers base options)
  have hbeside {name : Text} (hname : Path.IsSegment name) (hne : name ≠ "controllers") :
      ¬ InControllers base options (base.placeOf (Path.join options.moduleDir name)) :=
    not_inControllers_of_inside hname hne (List.prefix_refl _)
  have hloose : ∀ name ∈ ImportedSources.looseFiles, Path.IsSegment name ∧ name ≠ "controllers" := by
    decide
  have hremove (name : Text) (hname : name ∈ ["dist".toList, generatedDirName]) :
      (Run.removeDirAllIfThere (Path.join options.root name)).Keeps
        (Confined (.sparesFiles (InControllers base options)) base) :=
    Run.keeps_removeDirAllIfThere (Change.confined_of_removesAll htrans fun place old hinside _ hplace =>
      absurd hplace (not_inControllers_of_removed hfault hname hinside))
  refine keeps_importGenerated (keeps_fetch ?_ ?_ (fun name hname => ?_) ?_ (hremove _ (by simp)))
    (hremove _ (by simp))
  · exact Run.keeps_copyDir_sparesFiles fun place => not_inControllers_of_inside (by decide) (by decide)
  · exact Run.keeps_copyDir_sparesFiles fun place => not_inControllers_of_inside (by decide) (by decide)
  · obtain ⟨hsegment, hne⟩ := hloose name hname
    exact Run.keeps_copyFileIfThere (Change.confined_of_copies htrans
      (fun _ _ _ hplace => absurd hplace (hbeside hsegment hne)) _)
  · refine Run.keeps_removeFileIfThere (Change.confined_of_removesFile htrans fun _ hplace => ?_)
    have hservices : Path.IsSegment "services" := by decide
    have hindex : Path.IsSegment ImportedSources.indexFile := by decide
    refine absurd hplace (not_inControllers_of_inside hservices (by decide) ?_)
    rw [placeOf_join hindex]
    exact List.prefix_append _ _

/-- The end of a run writes no file there. -/
theorem finish_sparesControllers (hfault : options.fault? = none) (hplain : world.tree.Plain)
    (hok : finish options contents world = .ok () after) :
    Confined (.sparesFiles (InControllers world.tree options)) world.tree after.tree := by
  refine ((finish_sparesFiles contents).of_ok hok (.refl hplain)).mono fun place _ _ hspares hplace => ?_
  refine hspares ?_
  rintro rfl
  have hmodule := isSegment_moduleFile hfault
  refine not_inControllers_of_inside hmodule (fun hname => ?_) (List.prefix_refl _) hplace
  have hsuffix : ".module.ts".toList <:+ "controllers".toList := ⟨options.service, hname⟩
  exact absurd hsuffix (by decide)

theorem prepare_sparesControllers (hplain : world.tree.Plain) (hok : prepare options world = .ok () staged) :
    Confined (.sparesFiles (InControllers world.tree options)) world.tree staged.tree := by
  refine (prepare_sparesFiles.of_ok hok (.refl hplain)).mono fun place _ _ hspares hplace => ?_
  refine hspares fun hplanned => not_inside_of_planned (fault?_of_prepare_ok hok) hplanned ?_
  rw [InControllers, placeOf_controllerDir] at hplace
  exact (List.prefix_append _ _).trans hplace

/-! ## The batch of a document -/

/-- What is done with a document before the first controller is written: it gives the services that are
to have one, and their directory. -/
def openBatch (host : Host) (settings : Settings) (options : ProjectOptions) (document : Text) :
    Run (Path × List Path) := do
  let imported ← importServices host settings options document
  let names ← settings.services.discover imported.serviceDir
  if names.isEmpty then
    Run.log (.noServiceFiles imported.serviceDir)
    pure (imported.serviceDir, names)
  else
    Run.createDir options.controllerDir
    pure (imported.serviceDir, names)

theorem generateFromDocument_eq_batch (host : Host) (settings : Settings) (options : ProjectOptions)
    (document : Text) :
    generateFromDocument host settings options document =
      (do
        let (serviceDir, names) ← openBatch host settings options document
        if names.isEmpty then pure .empty
        else
          let written ← Controller.generateBatch serviceDir options.controllerDir names
          pure (moduleOf names written)) := by
  rw [generateFromDocument_eq]
  unfold openBatch writeControllers
  simp only [bind_assoc]
  refine bind_congr fun imported => bind_congr fun names => ?_
  split
  next hempty => simp only [bind_assoc, pure_bind, hempty, if_true]
  next hnames => simp only [bind_assoc, pure_bind, hnames, Bool.false_eq_true, if_false]

theorem openBatch_sparesControllers (hfault : options.fault? = none) (hplain : staged.tree.Plain)
    (hgenerator : ∀ launched, Started host settings options document staged launched →
      Confined (.sparesFiles (InControllers staged.tree options)) staged.tree launched.tree) :
    Confined (.sparesFiles (InControllers staged.tree options)) staged.tree
      (lastState (openBatch host settings options document staged)).tree := by
  have htrans := Permit.transitive_sparesFiles (InControllers staged.tree options)
  rw [openBatch, importServices_eq, bind_assoc]
  rcases runGenerator_cases host settings options document staged with
    ⟨failure, ended, hrun, hended⟩ | ⟨launched, ended, hstarted, hended, hrun⟩
  · rw [Run.bind_of_error hrun]
    exact hended.symm ▸ .refl hplain
  have hlaunched : Confined (.sparesFiles (InControllers staged.tree options)) staged.tree ended.tree :=
    hended ▸ hgenerator launched hstarted
  split at hrun
  · rw [Run.bind_of_ok hrun]
    refine (importGenerated_sparesControllers hfault).bind (fun imported => ?_) ended hlaunched
    refine (settings.services.keeps_discover _).bind fun names => ?_
    split
    · exact (Run.keeps_log _).bind fun _ => Run.keeps_pure _
    · refine Run.Keeps.bind (Run.keeps_createDir ?_) fun _ => Run.keeps_pure _
      exact Change.confined_of_creates htrans fun _ _ _ _ _ _ => rfl
  · rw [Run.bind_of_error hrun]
    exact hlaunched

/-! ## What is written -/

/-- The text of the controller that a project starts with if there is no document. -/
def starterText (options : ProjectOptions) : Text :=
  starterController options.service (options.serviceClass ++ "Controller") options.service

/-- The controllers that are written between two worlds, the one in which a project is prepared and the
one in which the contents of its module are known: their paths and texts, one after another. -/
inductive WritesControllers (host : Host) (settings : Settings) (options : ProjectOptions)
    (staged told : World) : List (Path × Text) → Prop
  | starter {first : World} (hdocument : options.document? = none)
      (hwrite : Run.writeUnlessThere (starterPath options) (starterText options) options.force staged =
        .ok true first)
      (htold : told.tree = first.tree) :
      WritesControllers host settings options staged told [(starterPath options, starterText options)]
  | kept {first : World} (hdocument : options.document? = none)
      (hwrite : Run.writeUnlessThere (starterPath options) (starterText options) options.force staged =
        .ok false first)
      (htold : told.tree = first.tree) : WritesControllers host settings options staged told []
  | unopened {document : Text} {failure : Failure} {last : World}
      (hdocument : options.document? = some document)
      (hopen : openBatch host settings options document staged = .error failure last)
      (htold : told.tree = last.tree) : WritesControllers host settings options staged told []
  | batch {document : Text} {serviceDir : Path} {names : List Path} {opened : World}
      {steps : List (ServiceFile × Text)} (hdocument : options.document? = some document)
      (hopen : openBatch host settings options document staged = .ok (serviceDir, names) opened)
      (hruns : Controller.BatchRuns serviceDir options.controllerDir opened.tree told.tree names steps) :
      WritesControllers host settings options staged told (steps.map fun step =>
        (step.1.controllerPath options.controllerDir, (Controller.ofSource step.1 step.2).render))

/-- What is written is determined by the world in which the project is prepared. -/
theorem WritesControllers.unique {otherTold : World} {others : List (Path × Text)}
    (hwrites : WritesControllers host settings options staged told writes)
    (hothers : WritesControllers host settings options staged otherTold others) : writes = others := by
  cases hwrites with
  | starter hdocument hwrite htold =>
      cases hothers with
      | starter => rfl
      | kept _ hkept => cases hwrite.symm.trans hkept
      | unopened hsome => cases hdocument.symm.trans hsome
      | batch hsome => cases hdocument.symm.trans hsome
  | kept hdocument hkept htold =>
      cases hothers with
      | starter _ hwrite => cases hwrite.symm.trans hkept
      | kept => rfl
      | unopened hsome => cases hdocument.symm.trans hsome
      | batch hsome => cases hdocument.symm.trans hsome
  | unopened hdocument hfailed htold =>
      cases hothers with
      | starter hnone => cases hdocument.symm.trans hnone
      | kept hnone => rfl
      | unopened => rfl
      | batch hagain hopen =>
          cases hdocument.symm.trans hagain
          cases hfailed.symm.trans hopen
  | batch hdocument hopen hruns =>
      cases hothers with
      | starter hnone => cases hdocument.symm.trans hnone
      | kept hnone => cases hdocument.symm.trans hnone
      | unopened hagain hfailed =>
          cases hdocument.symm.trans hagain
          cases hfailed.symm.trans hopen
      | batch hagain hopenAgain hrunsAgain =>
          cases hdocument.symm.trans hagain
          cases hopen.symm.trans hopenAgain
          rw [(hruns.unique hrunsAgain).2]

/-- The cases in which a report does not say what was written: the controller to start with was left
alone, or a generation failed that had written controllers. -/
def Misreports (options : ProjectOptions) (staged : FileTree) (failure? : Option Failure)
    (writes : List (Path × Text)) : Prop :=
  options.document? = none ∧ options.force = false ∧ staged.holds (starterPath options) = true ∨
    failure? ≠ none ∧ writes ≠ []

/-- What stands in the controllers' directory afterwards is told by what was written: no other file has
changed, and where something was written the last of it stands. -/
structure Accounts (options : ProjectOptions) (before after : FileTree) (writes : List (Path × Text)) :
    Prop where
  plain : after.Plain
  workingDir : after.workingDir = before.workingDir
  untouched : ∀ place, InControllers before options place →
    (∀ write ∈ writes, place ≠ before.placeOf write.1) → after.file? place = before.file? place
  written : ∀ write ∈ writes, ∃ name, Path.IsSegment name ∧ controllerSuffix <:+ name ∧
    write.1 = Path.join options.controllerDir name ∧
    ∃ last ∈ writes, last.1 = write.1 ∧ after.file? (before.placeOf write.1) = some (.text last.2)

theorem Accounts.of_spares (haccounts : Accounts options middle last writes)
    (hspared : Confined (.sparesFiles (InControllers tree options)) tree middle) :
    Accounts options tree last writes where
  plain := haccounts.plain
  workingDir := haccounts.workingDir.trans hspared.workingDir
  untouched := by
    intro place hinside hother
    rw [← hspared.file?_eq hinside]
    refine haccounts.untouched place ?_ fun write hwrite => ?_
    · rwa [InControllers, hspared.placeOf_eq]
    · rw [hspared.placeOf_eq]
      exact hother write hwrite
  written := by
    intro write hwrite
    simpa only [hspared.placeOf_eq] using haccounts.written write hwrite

theorem Accounts.spares (haccounts : Accounts options tree middle writes)
    (hspared : Confined (.sparesFiles (InControllers middle options)) middle last) :
    Accounts options tree last writes := by
  have hinControllers (place : Location) :
      InControllers middle options place ↔ InControllers tree options place := by
    rw [InControllers, InControllers, placeOf_congr haccounts.workingDir]
  refine ⟨hspared.plain, hspared.workingDir.trans haccounts.workingDir, fun place hinside hother => ?_,
    fun write hwrite => ?_⟩
  · rw [hspared.file?_eq ((hinControllers place).mpr hinside)]
    exact haccounts.untouched place hinside hother
  · obtain ⟨name, hname, hsuffix, hpath, other, hother, hsame, hfile⟩ := haccounts.written write hwrite
    refine ⟨name, hname, hsuffix, hpath, other, hother, hsame, ?_⟩
    rw [hspared.file?_eq ((hinControllers _).mpr ?_), hfile]
    rw [InControllers, hpath, placeOf_join hname]
    exact List.prefix_append _ _

theorem accounts_nil (hspared : Confined (.sparesFiles (InControllers tree options)) tree last) :
    Accounts options tree last [] :=
  ⟨hspared.plain, hspared.workingDir, fun _ hinside _ => hspared.file?_eq hinside,
    fun _ hwrite => absurd hwrite List.not_mem_nil⟩

theorem accounts_of_starter {first : World} (hfault : options.fault? = none) (hplain : staged.tree.Plain)
    (hwrite : Run.writeUnlessThere (starterPath options) (starterText options) options.force staged =
      .ok true first) :
    Accounts options staged.tree first.tree [(starterPath options, starterText options)] := by
  have htrans := Permit.transitive_sparesFiles fun place =>
    place ≠ staged.tree.placeOf (starterPath options)
  have hspared : (Run.writeUnlessThere (starterPath options) (starterText options) options.force).Keeps
      (Confined (.sparesFiles fun place => place ≠ staged.tree.placeOf (starterPath options))
        staged.tree) :=
    Run.keeps_writeUnlessThere
      (fun parent _ => Change.confined_of_creates htrans fun _ _ _ _ _ _ => rfl)
      (Change.confined_of_writes htrans fun _ _ hkept => absurd rfl hkept)
  have hfirst := hspared.of_ok hwrite (.refl hplain)
  refine ⟨hfirst.plain, hfirst.workingDir, fun place _ hother => ?_, fun write hmem => ?_⟩
  · exact hfirst.file?_eq (hother _ (List.mem_singleton_self _))
  · obtain rfl := List.mem_singleton.mp hmem
    refine ⟨_, isSegment_starterFile hfault, List.suffix_append _ _, rfl, _, hmem, rfl, ?_⟩
    exact file?_eq_some_iff.mpr (Run.file_of_writeUnlessThere hplain hwrite)

theorem accounts_of_batch {serviceDir : Path} {names : List Path} {steps : List (ServiceFile × Text)}
    (hplain : tree.Plain)
    (hruns : Controller.BatchRuns serviceDir options.controllerDir tree last names steps) :
    Accounts options tree last (steps.map fun step =>
      (step.1.controllerPath options.controllerDir, (Controller.ofSource step.1 step.2).render)) := by
  obtain ⟨-, hworking, hentries, hwritten⟩ := hruns.generatesEach.addsControllers hplain.linkFree
  have hsegment {step : ServiceFile × Text} (hstep : step ∈ steps) :
      Path.IsSegment step.1.controllerFile := by
    obtain ⟨name, -, hfile⟩ := hruns.generatesEach.ofPath?_of_mem hstep
    exact ServiceFile.isSegment_controllerFile hfile
  refine ⟨hruns.generatesEach.plain hplain, hworking, fun place _ hother => ?_,
    List.forall_mem_map.mpr fun step hstep => ?_⟩
  · rcases hentries place with hsame | ⟨step, hstep, hplace, -⟩
    · rw [file?, file?, hsame]
    · refine absurd ?_ (hother _ (List.mem_map_of_mem hstep))
      rw [hplace]
      exact (placeOf_join (hsegment hstep) _ _).symm
  · obtain ⟨other, hother, hname, hnew⟩ := hwritten step hstep
    refine ⟨_, hsegment hstep, List.suffix_append _ _, rfl, _, List.mem_map_of_mem hother, ?_, ?_⟩
    · exact congrArg (Path.join options.controllerDir) hname
    · refine file?_eq_some_iff.mpr ?_
      rw [ServiceFile.controllerPath, placeOf_join (hsegment hstep)]
      exact hnew

theorem WritesControllers.accounts
    (hwrites : WritesControllers host settings options staged told writes)
    (hfault : options.fault? = none) (hplain : staged.tree.Plain)
    (hgenerator : ∀ document launched, options.document? = some document →
      Started host settings options document staged launched →
      Confined (.sparesFiles (InControllers staged.tree options)) staged.tree launched.tree) :
    Accounts options staged.tree told.tree writes := by
  cases hwrites with
  | starter hdocument hwrite htold => exact htold ▸ accounts_of_starter hfault hplain hwrite
  | kept hdocument hwrite htold =>
      rcases Run.writeUnlessThere_cases hwrite with ⟨-, -, -, hsame⟩ | ⟨hwritten, -⟩
      · exact accounts_nil ((htold.trans hsame).symm ▸ .refl hplain)
      · cases hwritten
  | unopened hdocument hopen htold =>
      have hspared := openBatch_sparesControllers hfault hplain
        fun launched => hgenerator _ launched hdocument
      rw [hopen] at hspared
      exact accounts_nil (htold ▸ hspared)
  | batch hdocument hopen hruns =>
      have hspared := openBatch_sparesControllers hfault hplain
        fun launched => hgenerator _ launched hdocument
      rw [hopen] at hspared
      exact (accounts_of_batch hspared.plain hruns).of_spares hspared

/-! ## What is reported -/

/-- A generation that fails leaves the tree as it is then, and so does one that succeeds. -/
theorem tree_of_writeContents (hdocument : options.document? = some document)
    (hok : writeContents host settings options staged = .ok (contents, failure?) told) :
    told.tree = (lastState (generateFromDocument host settings options document staged)).tree := by
  rw [writeContents, hdocument] at hok
  obtain ⟨outcome, generated, hattempt, hok⟩ := Run.bind_eq_ok_iff.mp hok
  rw [← Run.lastState_attempt, hattempt]
  cases outcome with
  | ok value =>
      obtain ⟨⟨⟩, printed, htell, hok⟩ := Run.bind_eq_ok_iff.mp hok
      obtain ⟨-, rfl⟩ := Run.pure_eq_ok_iff.mp hok
      cases htell
      rfl
  | error failure =>
      obtain ⟨⟨⟩, logged, hlog, hok⟩ := Run.bind_eq_ok_iff.mp hok
      obtain ⟨⟨⟩, printed, htell, hok⟩ := Run.bind_eq_ok_iff.mp hok
      obtain ⟨-, rfl⟩ := Run.pure_eq_ok_iff.mp hok
      cases hlog
      cases htell
      rfl

/-- Once there is a batch, its controllers are all that is written; a generation that succeeds gives
their paths. -/
theorem exists_batchRuns_of_openBatch {serviceDir : Path} {names : List Path} {opened : World}
    (hopen : openBatch host settings options document staged = .ok (serviceDir, names) opened) :
    ∃ steps, Controller.BatchRuns serviceDir options.controllerDir opened.tree
        (lastState (generateFromDocument host settings options document staged)).tree names steps ∧
      ∀ contents after, generateFromDocument host settings options document staged = .ok contents after →
        contents.written = steps.map fun step => step.1.controllerPath options.controllerDir := by
  rw [generateFromDocument_eq_batch, Run.bind_of_ok hopen]
  dsimp only
  split
  next hempty =>
    obtain rfl := List.isEmpty_iff.mp hempty
    refine ⟨[], .done _, fun contents after hok => ?_⟩
    obtain ⟨rfl, -⟩ := Run.pure_eq_ok_iff.mp hok
    rfl
  next =>
    obtain ⟨steps, hruns, htargets⟩ :=
      Controller.exists_batchRuns serviceDir options.controllerDir names opened
    cases hbatch : Controller.generateBatch serviceDir options.controllerDir names opened with
    | ok targets generated =>
        rw [hbatch] at hruns
        rw [Run.bind_of_ok hbatch]
        refine ⟨steps, hruns, fun contents after hok => ?_⟩
        obtain ⟨rfl, -⟩ := Run.pure_eq_ok_iff.mp hok
        exact htargets targets generated hbatch
    | error failure generated =>
        rw [hbatch] at hruns
        rw [Run.bind_of_error hbatch]
        exact ⟨steps, hruns, fun contents after hok => nomatch hok⟩

/-- What the contents of the module say was written is that, but for the two cases. -/
structure Reports (options : ProjectOptions) (staged : FileTree) (controllers : List Path)
    (failure? : Option Failure) (writes : List (Path × Text)) : Prop where
  exact : controllers = writes.map Prod.fst ↔ ¬ Misreports options staged failure? writes
  starter : options.document? = none → controllers = [starterPath options]
  failed : failure? ≠ none → controllers = []

theorem reports_of_starter {written : Bool} {first : World} (hdocument : options.document? = none)
    (hwrite : Run.writeUnlessThere (starterPath options) (starterText options) options.force staged =
      .ok written first) (htold : told.tree = first.tree) :
    ∃ writes, WritesControllers host settings options staged told writes ∧
      Reports options staged.tree [starterPath options] none writes := by
  rcases Run.writeUnlessThere_cases hwrite with ⟨rfl, hholds, hforce, -⟩ | ⟨rfl, hforce, -⟩
  · refine ⟨[], .kept hdocument hwrite htold, ?_, fun _ => rfl, fun hnone => absurd rfl hnone⟩
    exact iff_of_false (List.cons_ne_nil _ _) (not_not_intro (Or.inl ⟨hdocument, hforce, hholds⟩))
  · refine ⟨_, .starter hdocument hwrite htold, iff_of_true rfl ?_, fun _ => rfl,
      fun hnone => absurd rfl hnone⟩
    rintro (⟨-, hunforced, hholds⟩ | ⟨hnone, -⟩)
    · rw [hforce hholds] at hunforced
      cases hunforced
    · exact hnone rfl

theorem reports_of_document (hdocument : options.document? = some document)
    (hok : writeContents host settings options staged = .ok (contents, failure?) told) :
    ∃ writes, WritesControllers host settings options staged told writes ∧
      Reports options staged.tree contents.written failure? writes := by
  have htold := tree_of_writeContents hdocument hok
  obtain ⟨writes, hwrites, hwritten⟩ : ∃ writes,
      WritesControllers host settings options staged told writes ∧
        ∀ contents after, generateFromDocument host settings options document staged =
          .ok contents after → contents.written = writes.map Prod.fst := by
    cases hopen : openBatch host settings options document staged with
    | error failure last =>
        rw [generateFromDocument_eq_batch, Run.bind_of_error hopen] at htold
        refine ⟨[], .unopened hdocument hopen htold, fun contents after hgenerate => ?_⟩
        rw [generateFromDocument_eq_batch, Run.bind_of_error hopen] at hgenerate
        cases hgenerate
    | ok batch opened =>
        obtain ⟨serviceDir, names⟩ := batch
        obtain ⟨steps, hruns, hpaths⟩ := exists_batchRuns_of_openBatch hopen
        refine ⟨_, .batch hdocument hopen (htold ▸ hruns), fun contents after hgenerate => ?_⟩
        rw [hpaths contents after hgenerate, List.map_map]
        rfl
  refine ⟨writes, hwrites, ?_⟩
  rcases writeContents_cases hdocument hok with
    ⟨rfl, generated, hgenerate, -⟩ | ⟨failure, rfl, rfl⟩
  · refine ⟨iff_of_true (hwritten _ _ hgenerate) ?_, ?_, fun hnone => absurd rfl hnone⟩
    · rintro (⟨hnone, -⟩ | ⟨hnone, -⟩)
      · cases hnone.symm.trans hdocument
      · exact hnone rfl
    · exact fun hnone => nomatch hnone.symm.trans hdocument
  · -- nothing is reported, which is right if nothing was written
    refine ⟨?_, fun hnone => ?_, fun _ => rfl⟩
    · have hnothing : [] = writes.map Prod.fst ↔ writes = [] := by rw [eq_comm, List.map_eq_nil_iff]
      refine hnothing.trans ?_
      simp [Misreports, hdocument]
    · exact nomatch hnone.symm.trans hdocument

theorem reports_of_writeContents
    (hok : writeContents host settings options staged = .ok (contents, failure?) told) :
    ∃ writes, WritesControllers host settings options staged told writes ∧
      Reports options staged.tree contents.written failure? writes := by
  cases hdocument : options.document? with
  | none =>
      rw [writeContents_of_none hdocument] at hok
      obtain ⟨starter, last, hstarter, hok⟩ := Run.bind_eq_ok_iff.mp hok
      obtain ⟨heq, rfl⟩ := Run.pure_eq_ok_iff.mp hok
      cases heq
      obtain ⟨rfl, written, first, hwrite, htree⟩ := writeStarter_eq_ok hstarter
      exact reports_of_starter hdocument hwrite htree
  | some document => exact reports_of_document hdocument hok

/-- A run that succeeds writes one list of controllers, and reports their paths in that order, except
where it left the controller to start with alone, which it reports all the same, and where a generation
failed after it had written controllers, which are not reported. In a tree without links, and if the
generator leaves the directory alone, the writes account for every file in the controllers' directory. -/
theorem scaffold_reports (hok : scaffold host settings options world = .ok report after) :
    ∃ staged told contents writes, prepare options world = .ok () staged ∧
      WritesControllers host settings options staged told writes ∧
      (∀ otherTold others, WritesControllers host settings options staged otherTold others →
        others = writes) ∧
      finish options contents told = .ok () after ∧
      Reports options staged.tree report.controllers report.openApiFailure? writes ∧
      (world.tree.Plain →
        (∀ document launched, options.document? = some document →
          Started host settings options document staged launched →
          Confined (.sparesFiles (InControllers staged.tree options)) staged.tree launched.tree) →
        Accounts options world.tree after.tree writes) := by
  rw [scaffold_eq] at hok
  obtain ⟨⟨⟩, staged, hprepare, hok⟩ := Run.bind_eq_ok_iff.mp hok
  obtain ⟨⟨contents, failure?⟩, told, hcontents, hok⟩ := Run.bind_eq_ok_iff.mp hok
  obtain ⟨⟨⟩, finished, hfinish, hok⟩ := Run.bind_eq_ok_iff.mp hok
  obtain ⟨rfl, rfl⟩ := Run.pure_eq_ok_iff.mp hok
  obtain ⟨writes, hwrites, hreports⟩ := reports_of_writeContents hcontents
  refine ⟨staged, told, contents, writes, hprepare, hwrites, fun _ _ hothers => hothers.unique hwrites,
    hfinish, hreports, fun hplain hgenerator => ?_⟩
  have hfault := fault?_of_prepare_ok hprepare
  have hstaged := prepare_sparesControllers hplain hprepare
  have htold := hwrites.accounts hfault hstaged.plain hgenerator
  exact (htold.spares (finish_sparesControllers hfault htold.plain hfinish)).of_spares hstaged

theorem scaffold_reports_starterProject :
    ∃ report after, scaffold idleHost {} starterProject (.ofTree workTree) = .ok report after ∧
      ∃ staged told writes, prepare starterProject (.ofTree workTree) = .ok () staged ∧
        WritesControllers idleHost {} starterProject staged told writes ∧
        report.controllers = writes.map Prod.fst ∧ Accounts starterProject workTree after.tree writes := by
  have hends : Run.bothEndIn (fun report _ _ staged =>
      report.openApiFailure? = none ∧ staged.holds (starterPath starterProject) = false)
      (scaffold idleHost {} starterProject (.ofTree workTree))
      (prepare starterProject (.ofTree workTree)) = true := by decide +kernel
  obtain ⟨report, after, ⟨⟩, ready, hok, hready, hchecked⟩ := Run.exists_ok_of_bothEndIn hends
  obtain ⟨hreport, hvacant⟩ := of_decide_eq_true hchecked
  have hplain : (World.ofTree workTree).tree.Plain := by decide +kernel
  obtain ⟨staged, told, contents, writes, hprepare, hwrites, -, -, hreports, haccounts⟩ :=
    scaffold_reports hok
  cases hready.symm.trans hprepare
  refine ⟨report, after, hok, ready, told, writes, hprepare, hwrites, hreports.exact.mpr ?_,
    haccounts hplain fun document launched hdocument => nomatch hdocument⟩
  rintro (⟨-, -, hholds⟩ | ⟨hfailed, -⟩)
  · cases hvacant.symm.trans hholds
  · exact hfailed hreport

/-- The small tree with a controller of somebody else's in the place of the one to start with. -/
def ownedTree : FileTree :=
  smallTree.put ["a-s", "src", "modules", "s", "controllers", "s.controller.ts"] (.file (.text "mine"))

/-- The small tree with another service, which cannot be read. -/
def unreadableTree : FileTree :=
  smallTree.put ["a-s", "src", "modules", "s", "services", "zoo.service.ts"] (.file (.bytes [255]))

/-- A controller of somebody else's is reported, and it stays what it was. And a controller that was
written before the batch failed at the next service is not reported. -/
theorem exists_misreported :
    (∃ report after, scaffold idleHost {} starterProject (.ofTree ownedTree) = .ok report after ∧
      report.controllers = ["./a-s/src/modules/s/controllers/s.controller.ts".toList] ∧
      after.tree.file? ["a-s", "src", "modules", "s", "controllers", "s.controller.ts"] =
        some (.text "mine")) ∧
    ∃ report after, scaffold idleHost {} (smallProject ".") (.ofTree unreadableTree) = .ok report after ∧
      report.controllers = [] ∧
      unreadableTree.file? ["a-s", "src", "modules", "s", "controllers", "pet.controller.ts"] = none ∧
      after.tree.file? ["a-s", "src", "modules", "s", "controllers", "pet.controller.ts"] =
        some (.text (Controller.ofSource ⟨"pet.service.ts", "pet.service"⟩ "public find()").render) := by
  constructor
  · let path : Path := "./a-s/src/modules/s/controllers/s.controller.ts"
    have hends : Run.endsIn (fun report tree => report.controllers = [path] ∧
        tree.file? ["a-s", "src", "modules", "s", "controllers", "s.controller.ts"] =
          some (.text "mine")) (scaffold idleHost {} starterProject (.ofTree ownedTree)) = true := by
      decide +kernel
    obtain ⟨report, after, hok, hchecked⟩ := Run.exists_ok_of_endsIn hends
    exact ⟨report, after, hok, of_decide_eq_true hchecked⟩
  · have hends : Run.endsIn (fun report tree => report.controllers = [] ∧
        tree.file? ["a-s", "src", "modules", "s", "controllers", "pet.controller.ts"] =
          some (.text (Controller.ofSource ⟨"pet.service.ts", "pet.service"⟩ "public find()").render))
        (scaffold idleHost {} (smallProject ".") (.ofTree unreadableTree)) = true := by
      decide +kernel
    obtain ⟨report, after, hok, hchecked⟩ := Run.exists_ok_of_endsIn hends
    obtain ⟨hpaths, hfile⟩ := of_decide_eq_true hchecked
    exact ⟨report, after, hok, hpaths, by decide +kernel, hfile⟩

end Project

end ServiceScaffold
