import ServiceScaffold.Proofs.Controller.Injection
import ServiceScaffold.Proofs.Project.Imported

/-! # Runs on one project

Each run that succeeds writes the module anew, and what it lists can be constructed, but for one case.
Without a document, and without being told to write over what is there, a run leaves the file alone
that stands in the place of the controller to start with, and lists it with no provider. So it depends
on the earlier runs what the module lists: a controller that was generated from a document stays where
it is, and its service is not provided any more.
-/

namespace ServiceScaffold

open FileTree

theorem Project.Imports.unique {dir path first second : Path} (hfirst : Project.Imports dir path first)
    (hsecond : Project.Imports dir path second) : first = second := by
  obtain ⟨below, hbelow, rfl⟩ := hfirst
  obtain ⟨other, hother, rfl⟩ := hsecond
  rw [List.append_cancel_left (hbelow.symm.trans hother)]

/-- No controller comes to a place that has a class in its constructor. -/
def Permit.addsNoInjection (spot : Location) : Permit := fun place old new =>
  place = spot → ∀ text serviceType, new.bind Entry.content? = some (.text text) →
    Injects text serviceType → old.bind Entry.content? = some (.text text)

theorem Permit.transitive_addsNoInjection (spot : Location) : (addsNoInjection spot).Transitive :=
  fun _ _ _ _ hfirst hsecond hspot text serviceType htext hinjects =>
    hfirst hspot text serviceType (hsecond hspot text serviceType htext hinjects) hinjects

theorem FileTree.Confined.addsNoInjection {kept : Location → Prop} {before after : FileTree}
    {spot : Location} (hconfined : Confined (.sparesFiles kept) before after) (hkept : kept spot) :
    Confined (.addsNoInjection spot) before after :=
  hconfined.mono fun _ _ _ hspares hspot _ _ htext _ => (hspares (hspot ▸ hkept)).symm.trans htext

namespace Project

variable {host : Host} {settings : Settings} {options : ProjectOptions} {document : Text}
variable {world after : World} {report : Report} {contents : ModuleContents}
variable {tree other : FileTree} {path : Path} {serviceType : Text}

/-! ## Controllers and providers -/

/-- In the file at the place of a path stands a controller with this class in its constructor. -/
def InjectsAt (tree : FileTree) (path : Path) (serviceType : Text) : Prop :=
  ∃ text, tree.file? (tree.placeOf path) = some (.text text) ∧ Injects text serviceType

/-- Whatever class a listed controller has in its constructor, a provider is listed of that class. -/
def Constructible (options : ProjectOptions) (contents : ModuleContents) (tree : FileTree) : Prop :=
  ∀ controller ∈ contents.controllers, ∀ path serviceType,
    Imports options.moduleDir controller.path path → InjectsAt tree path serviceType →
      ∃ provider ∈ contents.providers, provider.className = serviceType

/-- Every listed controller is imported from a file in the controllers' directory. -/
def ListsControllers (options : ProjectOptions) (contents : ModuleContents) : Prop :=
  ∀ controller ∈ contents.controllers, ∃ name, Path.IsSegment name ∧
    Imports options.moduleDir controller.path (Path.join options.controllerDir name)

/-- The file of the controller that a project starts with if there is no document. -/
def starterPath (options : ProjectOptions) : Path :=
  Path.join options.controllerDir (options.service ++ controllerSuffix)

/-- What a project without a document lists. -/
def starterContents (options : ProjectOptions) : ModuleContents where
  controllers :=
    [⟨options.serviceClass ++ "Controller", "./controllers/" ++ options.service ++ ".controller"⟩]
  providers := []
  written := [starterPath options]

/-- A run with these options does not write over the controller in the place of the one to start with,
though that one has a class in its constructor. -/
def KeepsInjecting (options : ProjectOptions) (tree : FileTree) : Prop :=
  options.document? = none ∧ options.force = false ∧
    ∃ serviceType, InjectsAt tree (starterPath options) serviceType

theorem injectsAt_congr (hworking : other.workingDir = tree.workingDir)
    (hfile : other.file? (tree.placeOf path) = tree.file? (tree.placeOf path)) :
    InjectsAt other path serviceType ↔ InjectsAt tree path serviceType := by
  rw [InjectsAt, InjectsAt, placeOf_congr hworking, hfile]

theorem constructible_empty (options : ProjectOptions) (tree : FileTree) :
    ListsControllers options .empty ∧ Constructible options .empty tree :=
  ⟨fun _ hcontroller => absurd hcontroller List.not_mem_nil,
    fun _ hcontroller => absurd hcontroller List.not_mem_nil⟩

theorem constructible_starter_iff (hfault : options.fault? = none) (tree : FileTree) :
    Constructible options (starterContents options) tree ↔
      ∀ serviceType, ¬ InjectsAt tree (starterPath options) serviceType := by
  have himports : Imports options.moduleDir
      ("./controllers/" ++ options.service ++ ".controller") (starterPath options) :=
    imports_controllerFile (isSegment_starterFile hfault)
  constructor
  · intro hconstructible serviceType hinjects
    obtain ⟨provider, hprovider, -⟩ :=
      hconstructible _ (List.mem_singleton_self _) _ serviceType himports hinjects
    exact List.not_mem_nil hprovider
  · intro hnone controller hcontroller path serviceType hpath hinjects
    rw [List.mem_singleton.mp hcontroller] at hpath
    obtain rfl := hpath.unique himports
    exact absurd hinjects (hnone serviceType)

/-- The end of a run changes nothing about that. -/
theorem constructible_finish_iff (hfault : options.fault? = none) (hplain : world.tree.Plain)
    (hlists : ListsControllers options contents) (hok : finish options contents world = .ok () after) :
    Constructible options contents after.tree ↔ Constructible options contents world.tree := by
  have hfinished := (finish_sparesFiles contents).of_ok hok (.refl hplain)
  refine forall₂_congr fun controller hcontroller => forall₂_congr fun path serviceType =>
    imp_congr_right fun himports => ?_
  obtain ⟨name, hname, hpath⟩ := hlists controller hcontroller
  obtain rfl := himports.unique hpath
  refine imp_congr_left (injectsAt_congr hfinished.workingDir (hfinished.file?_eq ?_))
  rw [placeOf_join hname, placeOf_controllerDir]
  exact below_ne_modulePath (isSegment_moduleFile hfault) _ _

/-! ## Controllers of services -/

/-- With its controllers the services' classes are listed. -/
theorem constructible_of_writeControllers {filter : ServiceFilter} (hplain : world.tree.Plain)
    (hok : writeControllers filter options.serviceDir options.controllerDir world =
      .ok contents after) :
    ListsControllers options contents ∧ Constructible options contents after.tree := by
  have hafter := (keeps_writeControllers_below filter options.serviceDir kept_plain.below).of_ok hok hplain
  obtain ⟨names, found, hdiscover, hcase⟩ := writeControllers_ok hok
  obtain ⟨rfl, -⟩ := ServiceFilter.discover_eq_ok hdiscover
  have hdiscovered := ServiceFilter.discovered_of_discover hplain hdiscover
  rcases hcase with ⟨-, rfl, -⟩ | ⟨created, written, hcreate, hbatch, rfl⟩
  · exact constructible_empty _ _
  · have hparsed {file : ServiceFile} (hfile : file ∈ names.filterMap ServiceFile.ofPath?) :
        ∃ name, ServiceFile.ofPath? name = some file :=
      (List.mem_filterMap.mp hfile).imp fun _ hname => hname.2
    refine ⟨fun controller hcontroller => ?_,
      fun controller hcontroller path serviceType himports hinjects => ?_⟩
    · obtain ⟨file, hfile, rfl⟩ := List.mem_map.mp hcontroller
      obtain ⟨name, hname⟩ := hparsed hfile
      exact ⟨file.controllerFile, ServiceFile.isSegment_controllerFile hname,
        imports_controllerImport hname⟩
    · obtain ⟨file, hfile, rfl⟩ := List.mem_map.mp hcontroller
      obtain ⟨name, hname⟩ := hparsed hfile
      obtain rfl := himports.unique (imports_controllerImport hname)
      -- what stands there was made for one of the services, and that one is listed
      obtain ⟨other, hother, source, hrendered⟩ := Controller.rendered_of_batch
        (Run.createDir_ok hplain hcreate).1 hafter (apart_of_discovered hdiscovered _) hbatch hfile
      obtain ⟨otherName, hotherName⟩ := hparsed hother
      obtain ⟨text, htext, hinjects⟩ := hinjects
      obtain rfl : _ = text := by simpa [hrendered] using file?_eq_some_iff.mp htext
      refine ⟨providerImport other, List.mem_map_of_mem hother, ?_⟩
      exact (injects_render hotherName source).unique hinjects

/-! ## The controller to start with -/

theorem writeContents_of_none (hdocument : options.document? = none) :
    writeContents host settings options =
      writeStarter options >>= fun contents => pure (contents, none) := by
  rw [writeContents, hdocument]

/-- No more is done than that the one file is written, unless it is there. -/
theorem writeStarter_eq_ok (hok : writeStarter options world = .ok contents after) :
    contents = starterContents options ∧ ∃ written first,
      Run.writeUnlessThere (starterPath options) (starterController options.service
        (options.serviceClass ++ "Controller") options.service) options.force world = .ok written first ∧
        after.tree = first.tree := by
  obtain ⟨written, first, hwrite, hok⟩ := Run.bind_eq_ok_iff.mp hok
  split at hok
  · obtain ⟨⟨⟩, told, htell, hok⟩ := Run.bind_eq_ok_iff.mp hok
    obtain ⟨rfl, rfl⟩ := Run.pure_eq_ok_iff.mp hok
    cases htell
    exact ⟨rfl, written, first, hwrite, rfl⟩
  · obtain ⟨rfl, rfl⟩ := Run.pure_eq_ok_iff.mp hok
    exact ⟨rfl, written, first, hwrite, rfl⟩

theorem writeStarter_ok (hfault : options.fault? = none) (hplain : world.tree.Plain)
    (hdirs : world.tree.Passable (world.tree.startOf options.controllerDir) options.controllerDir.steps)
    (hok : writeStarter options world = .ok contents after) :
    contents = starterContents options ∧ ∀ serviceType,
      InjectsAt after.tree (starterPath options) serviceType ↔
        options.force = false ∧ InjectsAt world.tree (starterPath options) serviceType := by
  obtain ⟨rfl, written, first, hwrite, htree⟩ := writeStarter_eq_ok hok
  obtain ⟨hworking, hentry⟩ :=
    Run.entry?_of_writeUnlessThere hplain (isSegment_starterFile hfault) hdirs hwrite
  refine ⟨rfl, fun serviceType => ?_⟩
  rw [htree]
  split at hentry
  next hwritten =>
    -- the controller to start with has no class in its constructor
    refine iff_of_false ?_ ?_
    · rintro ⟨text, htext, hinjects⟩
      rw [placeOf_congr hworking, file?_eq_some_iff, starterPath, hentry] at htext
      cases htext
      exact not_injects_starterController _ _ _ _ hinjects
    · rintro ⟨hforce, text, htext, -⟩
      rcases hwritten with hforced | hvacant
      · rw [hforce] at hforced
        cases hforced
      · rw [file?_eq_some_iff, starterPath, hvacant] at htext
        cases htext
  next hkept =>
    have hsame : first.tree.file? (world.tree.placeOf (starterPath options)) =
        world.tree.file? (world.tree.placeOf (starterPath options)) :=
      congrArg (Option.bind · Entry.content?) hentry
    rw [injectsAt_congr hworking hsame]
    exact (and_iff_right (Bool.eq_false_of_not_eq_true (not_or.mp hkept).1)).symm

/-! ## One run -/

theorem not_planned_starter (hfault : options.fault? = none) :
    ¬ Planned tree options (tree.placeOf (starterPath options)) := by
  intro hplanned
  refine not_inside_of_planned hfault hplanned ?_
  rw [starterPath, placeOf_join (isSegment_starterFile hfault), placeOf_controllerDir, List.append_assoc]
  exact List.prefix_append _ _

theorem starter_ne_modulePath (hfault : options.fault? = none) :
    tree.placeOf (starterPath options) ≠ tree.placeOf (modulePath options) := by
  rw [starterPath, placeOf_join (isSegment_starterFile hfault), placeOf_controllerDir]
  exact below_ne_modulePath (isSegment_moduleFile hfault) _ _

theorem constructible_writeContents_iff {failure? : Option Failure} (hfault : options.fault? = none)
    (hplain : world.tree.Plain) (hhost : host.Keeps Plain)
    (hdirs : world.tree.Passable (world.tree.startOf options.controllerDir) options.controllerDir.steps)
    (hok : writeContents host settings options world = .ok (contents, failure?) after) :
    ListsControllers options contents ∧
      (Constructible options contents after.tree ↔ ¬ KeepsInjecting options world.tree) := by
  cases hdocument : options.document? with
  | none =>
      rw [writeContents_of_none hdocument] at hok
      obtain ⟨starter, told, hstarter, hok⟩ := Run.bind_eq_ok_iff.mp hok
      obtain ⟨heq, rfl⟩ := Run.pure_eq_ok_iff.mp hok
      cases heq
      obtain ⟨rfl, hinjects⟩ := writeStarter_ok hfault hplain hdirs hstarter
      refine ⟨fun controller hcontroller => ?_, ?_⟩
      · rw [List.mem_singleton.mp hcontroller]
        exact ⟨_, isSegment_starterFile hfault, imports_controllerFile (isSegment_starterFile hfault)⟩
      · rw [constructible_starter_iff hfault, ← not_exists]
        simp only [hinjects, KeepsInjecting, hdocument, true_and, exists_and_left]
  | some document =>
      have hkeeps : ¬ KeepsInjecting options world.tree := by
        rintro ⟨hnone, -⟩
        cases hnone.symm.trans hdocument
      rw [iff_true_intro hkeeps, iff_true]
      rcases writeContents_cases hdocument hok with
        ⟨-, generated, hgenerate, htree⟩ | ⟨failure, -, rfl⟩
      · rw [generateFromDocument_eq] at hgenerate
        obtain ⟨imported, middle, himport, hwrite⟩ := Run.bind_eq_ok_iff.mp hgenerate
        rw [returns_importServices host settings options document _ _ _ himport] at hwrite
        rw [htree]
        refine constructible_of_writeControllers ?_ hwrite
        exact (keeps_importServices kept_plain hhost settings options document).of_ok himport hplain
      · exact constructible_empty _ _

theorem keepsInjecting_prepare_iff {staged : World} (hplain : world.tree.Plain)
    (hok : prepare options world = .ok () staged) :
    KeepsInjecting options staged.tree ↔ KeepsInjecting options world.tree := by
  have hstaged := prepare_sparesFiles.of_ok hok (.refl hplain)
  have hfile := hstaged.file?_eq (not_planned_starter (fault?_of_prepare_ok hok))
  simp only [KeepsInjecting, injectsAt_congr hstaged.workingDir hfile]

/-- After a run that succeeds the module is there, and what it lists can be constructed, except where
the run kept a controller that has a class in its constructor. -/
theorem constructible_scaffold_iff (hplain : world.tree.Plain) (hhost : host.Keeps Plain)
    (hok : scaffold host settings options world = .ok report after) :
    ∃ contents, report.controllers = contents.written ∧ ListsControllers options contents ∧
      after.tree.entry? (after.tree.placeOf (modulePath options)) = some (.file (.text
        (serviceModule options.serviceClass contents.controllers contents.providers))) ∧
      (Constructible options contents after.tree ↔ ¬ KeepsInjecting options world.tree) := by
  rw [scaffold_eq] at hok
  obtain ⟨⟨⟩, staged, hprepare, hok⟩ := Run.bind_eq_ok_iff.mp hok
  obtain ⟨⟨contents, failure?⟩, told, hcontents, hok⟩ := Run.bind_eq_ok_iff.mp hok
  obtain ⟨⟨⟩, finished, hfinish, hok⟩ := Run.bind_eq_ok_iff.mp hok
  obtain ⟨rfl, rfl⟩ := Run.pure_eq_ok_iff.mp hok
  have hfault := fault?_of_prepare_ok hprepare
  obtain ⟨hstaged, hdirs⟩ := passable_of_prepare hplain hprepare
  have htold := (keeps_writeContents kept_plain hhost hfault settings).of_ok hcontents hstaged
  obtain ⟨hlists, hconstructible⟩ :=
    constructible_writeContents_iff hfault hstaged hhost hdirs hcontents
  obtain ⟨-, hworking, hmodule, -⟩ := finish_ok htold hfinish
  refine ⟨contents, rfl, hlists, ?_, ?_⟩
  · rwa [placeOf_congr hworking]
  · rw [constructible_finish_iff hfault htold hlists hfinish, hconstructible,
      keepsInjecting_prepare_iff hplain hprepare]

theorem writeStarter_addsNoInjection :
    (writeStarter options).Keeps
      (Confined (.addsNoInjection (tree.placeOf (starterPath options))) tree) := by
  have htrans := Permit.transitive_addsNoInjection (tree.placeOf (starterPath options))
  refine Run.Keeps.bind (Run.keeps_writeUnlessThere (fun parent _ => ?_) ?_) fun written => ?_
  · exact Change.confined_of_creates htrans fun _ _ _ _ _ _ _ _ htext => by cases htext
  · refine Change.confined_of_writes htrans fun _ _ _ text serviceType htext hinjects => ?_
    cases htext
    exact absurd hinjects (not_injects_starterController _ _ _ _)
  · split
    · exact (Run.keeps_tell _).bind fun _ => Run.keeps_pure _
    · exact Run.keeps_pure _

/-- Without a document no controller comes into the place of the one to start with that has a class in
its constructor. -/
theorem injectsAt_of_scaffold (hplain : world.tree.Plain) (hdocument : options.document? = none)
    (hinjects : InjectsAt (lastState (scaffold host settings options world)).tree (starterPath options)
      serviceType) :
    InjectsAt world.tree (starterPath options) serviceType := by
  have hkeeps : Confined (.addsNoInjection (world.tree.placeOf (starterPath options))) world.tree
      (lastState (scaffold host settings options world)).tree := by
    cases hfault : options.fault? with
    | some failure =>
        rw [scaffold, hfault]
        exact .refl hplain
    | none =>
        rw [scaffold_eq, writeContents_of_none hdocument]
        refine Run.holds_bind ?_ fun _ staged _ hstaged => ?_
        · exact (prepare_sparesFiles world (.refl hplain)).addsNoInjection (not_planned_starter hfault)
        refine Run.holds_bind ?_ fun contents told _ htold => ?_
        · exact (writeStarter_addsNoInjection.bind fun _ => Run.keeps_pure _) staged hstaged
        refine Run.Keeps.bind (fun told htold => ?_) (fun _ => Run.keeps_pure _) told htold
        have hfinished := (finish_sparesFiles contents.1 told (.refl htold.plain)).addsNoInjection
          (starter_ne_modulePath hfault)
        rw [htold.placeOf_eq] at hfinished
        exact htold.trans (Permit.transitive_addsNoInjection _) hfinished
  obtain ⟨text, htext, htype⟩ := hinjects
  rw [hkeeps.placeOf_eq] at htext
  refine ⟨text, ?_, htype⟩
  rcases hkeeps.entries (world.tree.placeOf (starterPath options)) with hsame | hadds
  · rwa [file?, ← hsame]
  · exact hadds rfl text serviceType htext htype

/-! ## Runs one after another -/

/-- What may be another thing in each run on one project. -/
structure Job where
  host : Host
  settings : Settings := {}
  version : Text := "1.0.0"
  document? : Option Text := none
  force : Bool := false

namespace Job

/-- The options of a run on the project. -/
def optionsOn (project : ProjectOptions) (job : Job) : ProjectOptions :=
  { project with version := job.version, document? := job.document?, force := job.force }

/-- A run on the project. -/
def run (project : ProjectOptions) (job : Job) : Run Report :=
  scaffold job.host job.settings (job.optionsOn project)

end Job

/-- What runs on the project leave behind one after another, be they successes or failures. -/
def runAll (project : ProjectOptions) : List Job → World → World
  | [], world => world
  | job :: jobs, world => runAll project jobs (lastState (job.run project world))

variable {project : ProjectOptions} {start : World} {jobs earlier : List Job} {job : Job}

theorem runAll_concat (project : ProjectOptions) (jobs : List Job) (job : Job) (world : World) :
    runAll project (jobs ++ [job]) world = lastState (job.run project (runAll project jobs world)) := by
  induction jobs generalizing world with
  | nil => rfl
  | cons first jobs ih => exact ih _

theorem plain_runAll (hplain : start.tree.Plain) (hhosts : ∀ job ∈ jobs, job.host.Keeps Plain) :
    (runAll project jobs start).tree.Plain := by
  induction jobs generalizing start with
  | nil => exact hplain
  | cons job jobs ih =>
      obtain ⟨hhost, hrest⟩ := List.forall_mem_cons.mp hhosts
      exact ih (keeps_scaffold kept_plain hhost _ _ start hplain) hrest

/-- A controller in the place of the one to start with that has a class in its constructor was there
from the start, or since the last run with a document. -/
theorem injectsAt_runAll (hplain : start.tree.Plain) (hhosts : ∀ job ∈ jobs, job.host.Keeps Plain)
    (hinjects : InjectsAt (runAll project jobs start).tree (starterPath project) serviceType) :
    InjectsAt start.tree (starterPath project) serviceType ∨
      ∃ earlier job later, jobs = earlier ++ job :: later ∧ job.document? ≠ none ∧
        (∀ other ∈ later, other.document? = none) ∧
        InjectsAt (runAll project (earlier ++ [job]) start).tree (starterPath project) serviceType := by
  induction jobs using List.reverseRecOn with
  | nil => exact Or.inl hinjects
  | append_singleton jobs job ih =>
      obtain ⟨hearlier, -⟩ := List.forall_mem_append.mp hhosts
      cases hdocument : job.document? with
      | some document =>
          exact Or.inr ⟨jobs, job, [], rfl, by simp [hdocument], by simp, hinjects⟩
      | none =>
          rw [runAll_concat] at hinjects
          have hoptions : (job.optionsOn project).document? = none := hdocument
          have hbefore := injectsAt_of_scaffold (plain_runAll hplain hearlier) hoptions hinjects
          refine (ih hearlier hbefore).imp_right ?_
          rintro ⟨earlier, other, later, rfl, hother, hlater, hthere⟩
          refine ⟨earlier, other, later ++ [job], by simp, hother, ?_, hthere⟩
          exact List.forall_mem_append.mpr ⟨hlater, List.forall_mem_singleton.mpr hdocument⟩

/-- Whatever was run on a project before, after a run that succeeds every class that a listed controller
has in its constructor is among the providers, except in one case: the run had no document and was not
told to write over what is there, and a controller with a class in its constructor was in the place of
the one to start with. That one was there from the start, or it is left from a run with a document. -/
theorem constructible_after_runs (hplain : start.tree.Plain)
    (hhosts : ∀ other ∈ earlier ++ [job], other.host.Keeps Plain)
    (hok : job.run project (runAll project earlier start) = .ok report after) :
    ∃ contents, report.controllers = contents.written ∧ ListsControllers project contents ∧
      after.tree.entry? (after.tree.placeOf (modulePath project)) = some (.file (.text
        (serviceModule project.serviceClass contents.controllers contents.providers))) ∧
      (Constructible project contents after.tree ↔ ¬ (job.document? = none ∧ job.force = false ∧
        ∃ serviceType, InjectsAt (runAll project earlier start).tree (starterPath project) serviceType)) ∧
      ∀ serviceType,
        InjectsAt (runAll project earlier start).tree (starterPath project) serviceType →
          InjectsAt start.tree (starterPath project) serviceType ∨
            ∃ before other later, earlier = before ++ other :: later ∧ other.document? ≠ none ∧
              (∀ between ∈ later, between.document? = none) ∧
              InjectsAt (runAll project (before ++ [other]) start).tree (starterPath project)
                serviceType := by
  obtain ⟨hearlier, hjob⟩ := List.forall_mem_append.mp hhosts
  obtain ⟨contents, hwritten, hlists, hmodule, hconstructible⟩ := constructible_scaffold_iff
    (plain_runAll hplain hearlier) (hjob job (List.mem_singleton_self job)) hok
  exact ⟨contents, hwritten, hlists, hmodule, hconstructible, fun serviceType =>
    injectsAt_runAll hplain hearlier⟩

/-- A host whose generator writes one service, with the project's own name. -/
def sameNameHost : Host := puttingHost (generatedService "s.service.ts" "public find()") (.code 0)

/-- A run on the small project with a document, from which one service is generated. -/
def documentJob : Job := { host := sameNameHost, document? := some "http://d".toList }

theorem keeps_sameNameHost : sameNameHost.Keeps Plain := fun _ _ _ _ hlaunch hplain =>
  (plain_of_puttingHost (by decide +kernel) hlaunch hplain).1

/-- What is generated for the one service. -/
def sameNameController : Controller := .ofSource ⟨"s.service.ts", "s.service"⟩ "public find()"

theorem injects_sameNameController : Injects sameNameController.render "SService" :=
  ⟨by decide, sameNameController, by decide +kernel, rfl⟩

theorem constructible_after_runs_smallProject :
    InjectsAt (runAll (smallProject ".") [documentJob] (.ofTree ⟨[], []⟩)).tree
      (starterPath (smallProject ".")) "SService" ∧
    ∃ report after contents,
      Job.run (smallProject ".") { host := idleHost, force := true }
        (runAll (smallProject ".") [documentJob] (.ofTree ⟨[], []⟩)) = .ok report after ∧
      after.tree.entry? (after.tree.placeOf (modulePath (smallProject "."))) = some (.file (.text
        (serviceModule "S" contents.controllers contents.providers))) ∧
      Constructible (smallProject ".") contents after.tree := by
  have hinjects : InjectsAt (runAll (smallProject ".") [documentJob] (.ofTree ⟨[], []⟩)).tree
      (starterPath (smallProject ".")) "SService" := by
    refine ⟨sameNameController.render, ?_, injects_sameNameController⟩
    decide +kernel
  have hends : Run.endsIn (fun _ _ => true)
      (Job.run (smallProject ".") { host := idleHost, force := true }
        (runAll (smallProject ".") [documentJob] (.ofTree ⟨[], []⟩))) = true := by
    decide +kernel
  have hidle : idleHost.Keeps Plain := by
    rintro program arguments tree launched hlaunch hplain
    cases hlaunch
    exact hplain
  have hhosts : ∀ job ∈ [documentJob, { host := idleHost, force := true }], job.host.Keeps Plain :=
    List.forall_mem_cons.mpr ⟨keeps_sameNameHost, List.forall_mem_cons.mpr ⟨hidle, by simp⟩⟩
  obtain ⟨report, after, hok, -⟩ := Run.exists_ok_of_endsIn hends
  obtain ⟨contents, -, -, hmodule, hconstructible, -⟩ :=
    constructible_after_runs (by decide +kernel) hhosts hok
  exact ⟨hinjects, report, after, contents, hok, hmodule, hconstructible.mpr (by simp)⟩

/-- A controller that was generated from a document is listed without its service by the next run, if
that one has no document, and cannot be constructed. -/
theorem exists_unconstructible :
    ∃ report after,
      Job.run (smallProject ".") { host := idleHost }
        (runAll (smallProject ".") [documentJob] (.ofTree ⟨[], []⟩)) = .ok report after ∧
      after.tree.entry? (after.tree.placeOf (modulePath (smallProject "."))) = some (.file (.text
        (serviceModule "S" [⟨"SController", "./controllers/s.controller"⟩] []))) ∧
      InjectsAt after.tree (starterPath (smallProject ".")) "SService" ∧
      ¬ Constructible (smallProject ".") (starterContents (smallProject ".")) after.tree := by
  have hends : Run.endsIn (fun _ tree =>
      tree.entry? (tree.placeOf (modulePath (smallProject "."))) = some (.file (.text
        (serviceModule "S" [⟨"SController", "./controllers/s.controller"⟩] []))) ∧
      tree.file? (tree.placeOf (starterPath (smallProject "."))) = some (.text sameNameController.render))
      (Job.run (smallProject ".") { host := idleHost }
        (runAll (smallProject ".") [documentJob] (.ofTree ⟨[], []⟩))) = true := by
    decide +kernel
  obtain ⟨report, after, hok, hchecked⟩ := Run.exists_ok_of_endsIn hends
  obtain ⟨hmodule, hfile⟩ := of_decide_eq_true hchecked
  have hinjects : InjectsAt after.tree (starterPath (smallProject ".")) "SService" :=
    ⟨sameNameController.render, hfile, injects_sameNameController⟩
  refine ⟨report, after, hok, hmodule, hinjects, fun hconstructible => ?_⟩
  have hfault : (smallProject ".").fault? = none := by decide
  exact (constructible_starter_iff hfault after.tree).mp hconstructible _ hinjects

end Project

end ServiceScaffold
