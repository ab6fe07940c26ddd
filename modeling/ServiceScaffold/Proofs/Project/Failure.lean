import ServiceScaffold.Proofs.OpenApi.Document
import ServiceScaffold.Proofs.Project.Wiring

/-! # A generation that fails

A failure of the generation from a document is no failure of the project: the run goes on with an
empty module and ends as its last stage ends. The files that every project has do not depend on what
became of the generation, and a document that is refused leads to no more than the empty module.
-/

namespace ServiceScaffold

open FileTree

/-- The world after it was logged and told why the generation failed. -/
def World.reporting (world : World) (failure : Failure) : World :=
  ⟨world.tree, world.printed ++ [.notice (.openApiFailed failure.message)],
    world.logged ++ [.openApiFailed failure.message]⟩

namespace Permit

/-- What is there stays at certain places. -/
def spares (kept : Location → Prop) : Permit := fun place old new => kept place → old ≠ none → new = old

theorem transitive_spares (kept : Location → Prop) : (spares kept).Transitive := by
  intro place first second third hfirst hsecond hkept hthere
  obtain rfl := hfirst hkept hthere
  exact hsecond hkept hthere

/-- Something is there afterwards. -/
def occupies : Permit := fun _ _ new => new ≠ none

theorem transitive_occupies : occupies.Transitive := fun _ _ _ _ _ hsecond => hsecond

end Permit

namespace Project

variable {host other : Host} {settings otherSettings : Settings} {options : ProjectOptions}
variable {document : Text} {failure : Failure} {world staged failed after : World} {report : Report}
variable {contents : ModuleContents}

/-! ## The run goes on -/

theorem writeContents_of_failure (hdocument : options.document? = some document)
    (hfailure : generateFromDocument host settings options document staged = .error failure failed) :
    writeContents host settings options staged =
      .ok (.empty, some failure) (failed.reporting failure) := by
  rw [writeContents, hdocument]
  exact Run.bind_of_ok (Run.attempt_of_error hfailure) _

/-- A generation that fails leaves the end of the run to its last stage. -/
theorem scaffold_of_failure (hdocument : options.document? = some document)
    (hprepare : prepare options world = .ok () staged)
    (hfailure : generateFromDocument host settings options document staged = .error failure failed) :
    scaffold host settings options world =
      match finish options .empty (failed.reporting failure) with
      | .ok _ after => .ok ⟨options.root, [], some failure⟩ after
      | .error cause after => .error cause after := by
  rw [scaffold_eq, Run.bind_of_ok hprepare,
    Run.bind_of_ok (writeContents_of_failure hdocument hfailure)]
  cases hfinish : finish options .empty (failed.reporting failure) with
  | ok value after => exact Run.bind_of_ok hfinish _
  | error cause after => exact Run.bind_of_error hfinish _

/-! ## The module is there -/

/-- The text of a module stands where the path of its file led once the directories above it were
there. -/
def Installed (options : ProjectOptions) (contents : ModuleContents) (before after : FileTree) : Prop :=
  ∃ middle location, (∀ parent, Path.parent? (modulePath options) = some parent →
      Change.makeDirAll parent before = .ok () middle) ∧
    middle.locate .creation (modulePath options) = .ok (middle.spotAt location) ∧
    after.entry? location = some (.file (.text
      (serviceModule options.serviceClass contents.controllers contents.providers)))

/-- What is removed with an empty directory is no file, links or not. -/
theorem keeps_file_removeDir (path : Path) (location : Location) (content : Content) :
    (Change.removeDir path).Keeps fun tree => tree.entry? location = some (.file content) := by
  refine Change.keeps_removeDir_of_erase (fun tree removed hfile hdir => ?_) path
  refine (entry?_erase_of_ne ?_).trans hfile
  rintro rfl
  cases hfile.symm.trans hdir

theorem installed_of_finish (hok : finish options contents world = .ok () after) :
    Installed options contents world.tree after.tree := by
  obtain ⟨written, first, hwrite, hok⟩ := Run.bind_eq_ok_iff.mp hok
  obtain ⟨model, second, hmodel, hok⟩ := Run.bind_eq_ok_iff.mp hok
  obtain ⟨services, third, hservices, hok⟩ := Run.bind_eq_ok_iff.mp hok
  cases hok
  rcases Run.writeUnlessThere_cases hwrite with ⟨-, -, hforce, -⟩ | ⟨-, -, middle, hparent, -, hfile⟩
  · cases hforce
  obtain ⟨location, hlocate, hdir, hput⟩ := writeFile_ok hfile
  have hroot : location ≠ [] := by
    rintro rfl
    exact hdir rfl
  have hfirst : first.tree.entry? location = some (.file (.text
      (serviceModule options.serviceClass contents.controllers contents.providers))) := by
    rw [hput, entry?_put hroot, if_pos rfl]
  have hsecond := (Run.keeps_removeDirIfEmpty (keeps_file_removeDir _ _ _)).of_ok hmodel hfirst
  have hthird := (Run.keeps_removeDirIfEmpty (keeps_file_removeDir _ _ _)).of_ok hservices hsecond
  exact ⟨middle, location, hparent, hlocate, hthird⟩

/-- In a plain tree the module stands at the place of its path, and is read through it if there is
still a way to its directory. -/
theorem read_module (hplain : world.tree.Plain) (hmodule : Path.IsSegment (options.service ++ ".module.ts"))
    (hok : finish options contents world = .ok () after) :
    after.tree.entry? (after.tree.placeOf (modulePath options)) = some (.file (.text
        (serviceModule options.serviceClass contents.controllers contents.providers))) ∧
      (after.tree.isDir options.moduleDir = true → after.tree.read (modulePath options) = .ok
        (serviceModule options.serviceClass contents.controllers contents.providers)) := by
  obtain ⟨hend, hworking, htext, -⟩ := finish_ok hplain hok
  rw [← placeOf_congr hworking] at htext
  refine ⟨htext, fun hdir => (read_join_eq_ok_iff hmodule hend.linkFree).mpr ?_⟩
  obtain ⟨written, first, hwrite, -⟩ := Run.bind_eq_ok_iff.mp hok
  rcases Run.writeUnlessThere_cases hwrite with ⟨-, -, hforce, -⟩ |
    ⟨-, -, middle, hparent, hnone, hfile⟩
  · cases hforce
  have hfree := (Run.put_of_writeUnlessThere hplain hparent hnone hfile).1.linkFree
  obtain ⟨spot, hlocate⟩ := ((writeFile_eq_ok_iff hfree).mp hfile).1
  obtain ⟨haccept, -, hlong, -⟩ := (locate_join_eq_ok_iff hmodule hfree).mp hlocate
  refine ⟨haccept, passable_of_isDir hend.linkFree hdir, hlong, ?_⟩
  rwa [modulePath, placeOf_join hmodule] at htext

/-! ## The files that every project has -/

variable {base : FileTree} {place : Location} {name : Text}

theorem keptBelow_spares (hfault : options.fault? = none) :
    Change.KeptBelow options.moduleDir (Confined (.spares (Planned base options)) base) := by
  refine Change.keptBelow_confined (Permit.transitive_spares _) ?_ ?_
  · exact fun _ _ _ _ _ _ hthere => absurd rfl hthere
  · exact fun place old content hinside _ _ hplanned =>
      absurd hinside (not_inside_of_planned hfault hplanned)

theorem import_spares (hfault : options.fault? = none) :
    (importGenerated options).Keeps (Confined (.spares (Planned base options)) base) := by
  have htrans := Permit.transitive_spares (Planned base options)
  have hremove (name : Text) (hname : name ∈ ["dist".toList, generatedDirName]) :
      (Change.removeDirAll (Path.join options.root name)).Keeps
        (Confined (.spares (Planned base options)) base) :=
    Change.confined_of_removesAll htrans fun place old hinside _ hplanned =>
      absurd hinside (not_removed_of_planned hplanned hname)
  refine keeps_importGenerated_below (fun _ hconfined => hconfined.plain) (keptBelow_spares hfault) ?_
    (hremove _ (by simp)) (hremove _ (by simp))
  refine Change.confined_of_removesFile htrans fun content hplanned => ?_
  refine absurd ?_ (not_inside_of_planned hfault hplanned)
  rw [placeOf_below ((ProjectOptions.below_serviceDir options).join (by decide))]
  exact List.prefix_append _ _

theorem finish_spares (hfault : options.fault? = none) (contents : ModuleContents) :
    (finish options contents).Keeps (Confined (.spares (Planned base options)) base) := by
  have hremove {names : List Text} {path : Path} (hpath : Path.Below options.moduleDir names path) :
      (Change.removeDir path).Keeps (Confined (.spares (Planned base options)) base) := by
    refine Change.confined_of_removesDir (Permit.transitive_spares _) fun _ _ _ hplanned => ?_
    refine absurd ?_ (not_inside_of_planned hfault hplanned)
    rw [placeOf_below hpath]
    exact List.prefix_append _ _
  exact keeps_finish_below hfault (keptBelow_spares hfault)
    (hremove (ProjectOptions.below_inModule (by decide) options))
    (hremove (ProjectOptions.below_serviceDir options)) contents

/-- Once they are written the files that every project has stay as they are, if the generator leaves
them alone. -/
theorem scaffold_spares (hplain : staged.tree.Plain) (hprepare : prepare options world = .ok () staged)
    (hgenerator : ∀ document launched, options.document? = some document →
      Started host settings options document staged launched →
      Confined (.spares (Planned staged.tree options)) staged.tree launched.tree) :
    Confined (.spares (Planned staged.tree options)) staged.tree
      (lastState (scaffold host settings options world)).tree := by
  have hfault := fault?_of_prepare_ok hprepare
  rw [scaffold_eq, Run.bind_of_ok hprepare]
  refine Run.holds_bind (holds_writeContents hfault (keptBelow_spares hfault) hgenerator
    (fun _ _ _ _ _ => import_spares hfault) (.refl hplain)) ?_
  rintro ⟨contents, failure?⟩ told - htold
  exact (finish_spares hfault contents).bind (fun _ => Run.keeps_pure _) told htold

theorem there_of_writePlanned {force : Bool} {files : List PlannedFile}
    (hfiles : ∀ file ∈ files, ∃ names, names ≠ [] ∧ Path.Below options.root names file.path)
    (hplain : world.tree.Plain) (hok : writePlanned force files world = .ok () after) :
    Confined .occupies world.tree after.tree ∧
      ∀ file ∈ files, after.tree.entry? (world.tree.placeOf file.path) ≠ none := by
  induction files generalizing world with
  | nil =>
      obtain ⟨-, rfl⟩ := Run.pure_eq_ok_iff.mp hok
      exact ⟨.refl hplain, by simp⟩
  | cons file files ih =>
      obtain ⟨⟨names, hnames, hbelow⟩, hrest⟩ := List.forall_mem_cons.mp hfiles
      obtain ⟨written, middle, hwrite, hok⟩ := Run.bind_eq_ok_iff.mp hok
      have hkept : Change.KeptBelow options.root (Confined .occupies world.tree) :=
        Change.keptBelow_confined Permit.transitive_occupies
          (fun _ _ _ _ _ => by simp [Permit.occupies])
          (fun _ _ _ _ _ _ => by simp [Permit.occupies])
      have hmiddle := (hkept.writeUnlessThere hbelow hnames _ _).of_ok hwrite (.refl hplain)
      obtain ⟨hlater, hthere⟩ := ih hrest hmiddle.plain hok
      refine ⟨hmiddle.trans Permit.transitive_occupies hlater, ?_⟩
      refine List.forall_mem_cons.mpr ⟨?_, fun other hother => ?_⟩
      · rcases hlater.entries (world.tree.placeOf file.path) with hsame | hnew
        · exact hsame ▸ Run.there_of_writeUnlessThere hplain hwrite
        · exact hnew
      · exact hmiddle.placeOf_eq other.path ▸ hthere other hother

/-- Once a project is prepared its files are there. -/
theorem there_of_prepare (hplain : world.tree.Plain) (hok : prepare options world = .ok () staged)
    (hplanned : Planned staged.tree options place) : staged.tree.entry? place ≠ none := by
  obtain ⟨file, hfile, rfl⟩ := hplanned
  rw [prepare, fault?_of_prepare_ok hok] at hok
  obtain ⟨⟨⟩, first, hcontrollers, hok⟩ := Run.bind_eq_ok_iff.mp hok
  obtain ⟨⟨⟩, second, hservices, hok⟩ := Run.bind_eq_ok_iff.mp hok
  obtain ⟨⟨⟩, third, hstage, hok⟩ := Run.bind_eq_ok_iff.mp hok
  cases hok
  have hfirst := Run.createDir_ok hplain hcontrollers
  have hsecond := Run.createDir_ok hfirst.1 hservices
  have hfiles : ∀ file ∈ plannedFiles options options.root,
      ∃ names, names ≠ [] ∧ Path.Below options.root names file.path := by
    intro file hfile
    obtain ⟨name, -, hbelow | hbelow⟩ := below_plannedFiles hfile
    · exact ⟨[name], List.cons_ne_nil _ _, hbelow⟩
    · exact ⟨["src", name], List.cons_ne_nil _ _, hbelow⟩
  obtain ⟨hlater, hthere⟩ := there_of_writePlanned hfiles hsecond.1 hstage
  exact placeOf_congr hlater.workingDir file.path ▸ hthere file hfile

/-! ## A document that is refused -/

/-- The directories that are removed at the end if they hold nothing. -/
def removedDirs (options : ProjectOptions) : List Path :=
  [Path.join options.moduleDir "model", options.serviceDir]

/-- What the last stage may do to a prepared project: write the module, and remove the two directories
if they hold nothing. -/
def finishes (tree : FileTree) (options : ProjectOptions) (text : Text) : Permit := fun place old new =>
  place = tree.placeOf (modulePath options) ∧ new = some (.file (.text text)) ∨
    (∃ path ∈ removedDirs options, place = tree.placeOf path) ∧ old = some .dir ∧
      (∀ name, tree.entry? (place ++ [name]) = none) ∧ new = none

theorem placeOf_removedDir (tree : FileTree) {path : Path} (hpath : path ∈ removedDirs options) :
    ∃ name : Text, name ∈ ["model".toList, "services".toList] ∧
      tree.placeOf path = tree.placeOf options.moduleDir ++ [name] := by
  rcases List.mem_cons.mp hpath with rfl | hpath
  · exact ⟨"model", by simp, placeOf_join (by decide) _ _⟩
  · rw [List.mem_singleton.mp hpath]
    exact ⟨"services", by simp, placeOf_serviceDir options tree⟩

theorem placeOf_modulePath (hfault : options.fault? = none) (tree : FileTree) :
    tree.placeOf (modulePath options) =
      tree.placeOf options.moduleDir ++ [options.service ++ ".module.ts"] :=
  placeOf_join (isSegment_moduleFile hfault) _ _

/-- The module is neither of the directories. -/
theorem modulePath_ne_removedDir (hfault : options.fault? = none) (tree : FileTree) {path : Path}
    (hpath : path ∈ removedDirs options) : tree.placeOf (modulePath options) ≠ tree.placeOf path := by
  obtain ⟨name, hname, hplace⟩ := placeOf_removedDir tree hpath
  rw [hplace, placeOf_modulePath hfault]
  intro heq
  have hsuffix : ".module.ts".toList <:+ name :=
    ⟨options.service, List.singleton_inj.mp (List.append_cancel_left heq)⟩
  revert hsuffix
  rcases List.mem_cons.mp hname with rfl | hname
  · decide
  · rw [List.mem_singleton.mp hname]
    decide

theorem transitive_finishes (hfault : options.fault? = none) (tree : FileTree) (text : Text) :
    (finishes tree options text).Transitive := by
  rintro place first second third hfirst hsecond
  rcases hfirst with ⟨hmodule, hfile⟩ | ⟨hremoved, hdir, hempty, hnone⟩
  · rcases hsecond with hsecond | ⟨-, hdir, -⟩
    · exact Or.inl hsecond
    · rw [hfile] at hdir
      cases hdir
  · rcases hsecond with ⟨hmodule, -⟩ | ⟨-, hdir', -⟩
    · obtain ⟨path, hpath, hplace⟩ := hremoved
      exact absurd (hmodule.symm.trans hplace) (modulePath_ne_removedDir hfault tree hpath)
    · rw [hnone] at hdir'
      cases hdir'

/-- Where the module's directory can be reached, its text is all that is written. -/
theorem writeModule_finishes (hfault : options.fault? = none) (hplain : world.tree.Plain)
    (hdirs : world.tree.Passable (world.tree.startOf options.moduleDir) options.moduleDir.steps)
    (text : Text) :
    Confined (finishes world.tree options text) world.tree
      (lastState (Run.writeUnlessThere (modulePath options) text true world)).tree := by
  have htrans := Permit.transitive_writes world.tree (modulePath options) (.text text)
  have hwritten : (Run.writeUnlessThere (modulePath options) text true).Keeps
      (Confined (.writes world.tree (modulePath options) (.text text)) world.tree) := by
    refine Run.keeps_writeUnlessThere (fun parent hparent => ?_) ?_
    · -- directories would be created only where there are none, and they are all there
      refine Change.confined_of_creates htrans fun current hconfined place hvacant hpasses => ?_
      have honWay := Path.onWay_of_parent?_join (isSegment_moduleFile hfault) hparent
      have hthere := entry?_of_passes hdirs (hpasses.of_onWay honWay)
      rcases hconfined.entries place with hsame | ⟨-, -, hfile⟩
      · rw [hvacant, hthere] at hsame
        cases hsame
      · rw [hvacant] at hfile
        cases hfile
    · exact Change.confined_of_writes htrans fun old hdir => ⟨rfl, hdir, rfl⟩
  exact (hwritten world (.refl hplain)).mono fun _ _ _ ⟨hmodule, _, hfile⟩ => Or.inl ⟨hmodule, hfile⟩

theorem removeDirIfEmpty_finishes (hfault : options.fault? = none) (text : Text) {path : Path}
    (hpath : path ∈ removedDirs options) :
    (Run.removeDirIfEmpty path).Keeps (Confined (finishes base options text) base) := by
  refine Run.keeps_removeDirIfEmpty (Change.confined_of_removesDir
    (transitive_finishes hfault base text) fun tree hconfined hempty => ?_)
  refine Or.inr ⟨⟨path, hpath, rfl⟩, rfl, fun name => ?_, rfl⟩
  rcases hconfined.entries (base.placeOf path ++ [name]) with hsame | ⟨-, hfile⟩ | ⟨hremoved, -⟩
  · exact hsame ▸ hempty name
  · rw [hempty name] at hfile
    cases hfile
  · -- neither directory is inside the other
    obtain ⟨other, hother, hplace⟩ := hremoved
    obtain ⟨first, -, hfirst⟩ := placeOf_removedDir base hpath
    obtain ⟨second, -, hsecond⟩ := placeOf_removedDir base hother
    rw [hfirst, hsecond] at hplace
    simpa using congrArg List.length hplace

theorem finish_finishes (hfault : options.fault? = none) (hplain : world.tree.Plain)
    (hdirs : world.tree.Passable (world.tree.startOf options.moduleDir) options.moduleDir.steps)
    (contents : ModuleContents) :
    Confined (finishes world.tree options
        (serviceModule options.serviceClass contents.controllers contents.providers)) world.tree
      (lastState (finish options contents world)).tree := by
  refine Run.holds_bind (writeModule_finishes hfault hplain hdirs _) fun _ middle _ hmiddle => ?_
  refine Run.Keeps.bind ?_ (fun _ => Run.Keeps.bind ?_ fun _ => Run.keeps_tell _) middle hmiddle
  · exact removeDirIfEmpty_finishes hfault _ (by simp [removedDirs])
  · exact removeDirIfEmpty_finishes hfault _ (by simp [removedDirs])

/-- A document that is refused is the end of the generation, and the generator is not asked. -/
theorem generateFromDocument_of_refused
    (hrefused : OpenApi.preflight host.wording document staged = .error failure failed)
    (settings : Settings) (options : ProjectOptions) :
    generateFromDocument host settings options document staged = .error failure failed := by
  have hannounced : announce host.wording document staged = .error failure failed :=
    Run.bind_of_error hrefused _
  rw [generateFromDocument_eq, importServices_eq, runGenerator, bind_assoc, bind_assoc]
  exact Run.bind_of_error hannounced _

/-- If the document was refused, another generator makes no difference to the run. -/
theorem scaffold_of_refused (hdocument : options.document? = some document)
    (hprepare : prepare options world = .ok () staged)
    (hrefused : OpenApi.preflight host.wording document staged = .error failure failed)
    (hwording : other.wording = host.wording) (settings otherSettings : Settings) :
    scaffold other otherSettings options world = scaffold host settings options world := by
  rw [scaffold_of_failure hdocument hprepare (generateFromDocument_of_refused hrefused settings options)]
  rw [← hwording] at hrefused
  exact scaffold_of_failure hdocument hprepare
    (generateFromDocument_of_refused hrefused otherSettings options)

/-- If the document was refused, nothing is done after the files of the project but the module written
and empty directories removed. -/
theorem finishes_of_refused (hplain : world.tree.Plain) (hdocument : options.document? = some document)
    (hprepare : prepare options world = .ok () staged)
    (hrefused : OpenApi.preflight host.wording document staged = .error failure failed) :
    Confined (finishes staged.tree options (serviceModule options.serviceClass [] [])) staged.tree
      (lastState (scaffold host settings options world)).tree := by
  obtain ⟨rfl, -, -⟩ := OpenApi.preflight_eq_error_iff.mp hrefused
  obtain ⟨hstaged, hcontrollers⟩ := passable_of_prepare hplain hprepare
  have hdirs := ((passable_join_iff (by decide)).mp hcontrollers).1
  have hfinished : Confined (finishes failed.tree options (serviceModule options.serviceClass [] []))
      failed.tree (lastState (finish options .empty (failed.reporting failure))).tree := by
    have hreporting : (failed.reporting failure).tree = failed.tree := rfl
    rw [← hreporting] at hstaged hdirs ⊢
    exact finish_finishes (fault?_of_prepare_ok hprepare) hstaged hdirs .empty
  rw [scaffold_of_failure hdocument hprepare (generateFromDocument_of_refused hrefused settings options)]
  cases hfinish : finish options .empty (failed.reporting failure) with
  | ok value after =>
      rw [hfinish] at hfinished
      exact hfinished
  | error cause after =>
      rw [hfinish] at hfinished
      exact hfinished

/-! ## The law of a failure -/

/-- Started in this world the generator makes no symbolic link, and leaves the files alone that every
project has. -/
def LeavesPlanned (host : Host) (settings : Settings) (options : ProjectOptions) (staged : World) :
    Prop :=
  ∀ document launched, options.document? = some document →
    Started host settings options document staged launched →
    Confined (fun place _ _ => ¬ Planned staged.tree options place) staged.tree launched.tree

theorem planned_of_leavesPlanned (hplain : world.tree.Plain)
    (hprepare : prepare options world = .ok () staged)
    (hgenerator : LeavesPlanned host settings options staged) (hplanned : Planned staged.tree options place) :
    (lastState (scaffold host settings options world)).tree.entry? place = staged.tree.entry? place := by
  have hspared := scaffold_spares (passable_of_prepare hplain hprepare).1 hprepare
    fun document launched hdocument hstarted =>
      (hgenerator document launched hdocument hstarted).mono fun _ _ _ hfree hkept => absurd hkept hfree
  rcases hspared.entries place with hsame | hkept
  · exact hsame
  · exact hkept hplanned (there_of_prepare hplain hprepare hplanned)

/-- A run that ends well after the generation failed reports the failure and no controllers, and left the
empty module. -/
theorem report_of_failure (hdocument : options.document? = some document)
    (hprepare : prepare options world = .ok () staged)
    (hfailure : generateFromDocument host settings options document staged = .error failure failed)
    (hok : scaffold host settings options world = .ok report after) :
    report.openApiFailure? = some failure ∧ report.controllers = [] ∧
      Installed options .empty failed.tree after.tree ∧
      (failed.tree.Plain → after.tree.entry? (after.tree.placeOf (modulePath options)) =
          some (.file (.text (serviceModule options.serviceClass [] []))) ∧
        (after.tree.isDir options.moduleDir = true →
          after.tree.read (modulePath options) = .ok (serviceModule options.serviceClass [] []))) := by
  rw [scaffold_of_failure hdocument hprepare hfailure] at hok
  split at hok
  next hfinish =>
    cases hok
    have hinstalled : Installed options .empty (failed.reporting failure).tree after.tree :=
      installed_of_finish hfinish
    refine ⟨rfl, rfl, hinstalled, fun hplain => ?_⟩
    have hreporting : (failed.reporting failure).tree.Plain := hplain
    exact read_module hreporting (isSegment_moduleFile (fault?_of_prepare_ok hprepare)) hfinish
  next => cases hok

/-- The files that every project has do not depend on the generator, if that leaves them alone. -/
theorem planned_of_runs (hplain : world.tree.Plain) (hprepare : prepare options world = .ok () staged)
    (hleaves : LeavesPlanned host settings options staged) {document? : Option Text}
    (hother : LeavesPlanned other otherSettings { options with document? } staged)
    (hplanned : Planned staged.tree options place) :
    (lastState (scaffold host settings options world)).tree.entry? place =
      (lastState (scaffold other otherSettings { options with document? } world)).tree.entry? place := by
  -- the document has no part in what is prepared
  have hprepared : prepare { options with document? } world = .ok () staged := hprepare
  have hplannedOther : Planned staged.tree { options with document? } place := hplanned
  exact (planned_of_leavesPlanned hplain hprepare hleaves hplanned).trans
    (planned_of_leavesPlanned hplain hprepared hother hplannedOther).symm

/-- However the generation from a document fails, the run goes on with an empty module and ends as its
last stage ends. If that succeeds the report has the failure with the whole chain of its causes, and the
empty module is there. In a plain tree, and as long as generators leave them alone, the files that every
project has are those of any other run that succeeds. If the document was refused no generator has a
part in the run, and in a plain tree nothing is done after the files of the project but the module
written and empty directories removed. -/
theorem scaffold_contains_failure (hdocument : options.document? = some document)
    (hprepare : prepare options world = .ok () staged)
    (hfailure : generateFromDocument host settings options document staged = .error failure failed) :
    (scaffold host settings options world =
      match finish options .empty (failed.reporting failure) with
      | .ok _ after => .ok ⟨options.root, [], some failure⟩ after
      | .error cause after => .error cause after) ∧
    (∀ report after, scaffold host settings options world = .ok report after →
      report.openApiFailure? = some failure ∧
      report.openApiError? = some (List.intercalate ": " failure.chain) ∧ report.controllers = [] ∧
      Installed options .empty failed.tree after.tree ∧
      (failed.tree.Plain → after.tree.entry? (after.tree.placeOf (modulePath options)) =
          some (.file (.text (serviceModule options.serviceClass [] []))) ∧
        (after.tree.isDir options.moduleDir = true →
          after.tree.read (modulePath options) = .ok (serviceModule options.serviceClass [] [])))) ∧
    (world.tree.Plain → LeavesPlanned host settings options staged →
      ∀ other otherSettings document? report after,
        LeavesPlanned other otherSettings { options with document? } staged →
        scaffold other otherSettings { options with document? } world = .ok report after →
        ∀ place, Planned staged.tree options place →
          (lastState (scaffold host settings options world)).tree.entry? place =
            after.tree.entry? place) ∧
    (OpenApi.preflight host.wording document staged = .error failure failed →
      OpenApi.Refused host.wording staged.tree document failure ∧
      (∀ other otherSettings, other.wording = host.wording →
        scaffold other otherSettings options world = scaffold host settings options world) ∧
      (world.tree.Plain →
        Confined (finishes staged.tree options (serviceModule options.serviceClass [] [])) staged.tree
          (lastState (scaffold host settings options world)).tree)) := by
  refine ⟨scaffold_of_failure hdocument hprepare hfailure, fun report after hok => ?_,
    fun hplain hleaves other otherSettings document? report after hother hok place hplanned => ?_,
    fun hrefused => ⟨?_, ?_, ?_⟩⟩
  · obtain ⟨hreported, hcontrollers, hmodule⟩ := report_of_failure hdocument hprepare hfailure hok
    refine ⟨hreported, ?_, hcontrollers, hmodule⟩
    rw [Report.openApiError?, hreported]
    rfl
  · have hsame := planned_of_runs hplain hprepare hleaves hother hplanned
    rwa [hok] at hsame
  · exact (OpenApi.preflight_eq_error_iff.mp hrefused).2.2
  · exact fun other otherSettings hwording =>
      scaffold_of_refused hdocument hprepare hrefused hwording settings otherSettings
  · exact fun hplain => finishes_of_refused hplain hdocument hprepare hrefused

/-- The small project from a document of this name. -/
def smallProjectOf (document : Text) : ProjectOptions :=
  { smallProject "." with document? := some document }

/-- A host whose programs do nothing. Its parser of documents says what is wrong with an object that is
opened and not closed. -/
def spokenHost : Host :=
  { idleHost with wording := ⟨fun _ => [], fun _ _ => "EOF while parsing an object at line 1 column 1"⟩ }

/-- A tree with a document that breaks off. -/
def brokenTree : FileTree := ⟨[], [(["d.json"], .file (.text "\x7b"))]⟩

theorem scaffold_contains_failure_smallProject :
    ∃ (staged failed : World) (report : Report) (after : World),
      prepare (smallProjectOf "d.json") (.ofTree brokenTree) = .ok () staged ∧
      scaffold spokenHost {} (smallProjectOf "d.json") (.ofTree brokenTree) = .ok report after ∧
      report.openApiError? = some ("Failed to parse OpenAPI JSON: d.json: " ++
        "EOF while parsing an object at line 1 column 1").toList ∧
      Installed (smallProjectOf "d.json") .empty failed.tree after.tree ∧
      OpenApi.Refused spokenHost.wording staged.tree "d.json"
        (.parseDocument .json "d.json" "EOF while parsing an object at line 1 column 1") ∧
      Confined (finishes staged.tree (smallProjectOf "d.json") (serviceModule "S" [] [])) staged.tree
        after.tree := by
  have hrefused : Run.endsIn (fun outcome _ => match outcome with
      | .error failure => decide (failure = .parseDocument .json "d.json"
          "EOF while parsing an object at line 1 column 1")
      | .ok _ => false)
      ((prepare (smallProjectOf "d.json") >>= fun _ =>
        Run.attempt (OpenApi.preflight spokenHost.wording "d.json")) (.ofTree brokenTree)) = true := by
    decide +kernel
  obtain ⟨outcome, failed, hrun, houtcome⟩ := Run.exists_ok_of_endsIn hrefused
  obtain ⟨⟨⟩, staged, hprepare, hattempt⟩ := Run.bind_eq_ok_iff.mp hrun
  cases outcome with
  | ok => cases houtcome
  | error failure =>
      obtain rfl := of_decide_eq_true houtcome
      have hpreflight := Run.run_of_attempt_error hattempt
      have hends : Run.endsIn (fun _ _ => true) (scaffold spokenHost {} (smallProjectOf "d.json")
          (.ofTree brokenTree)) = true := by decide +kernel
      obtain ⟨report, after, hok, -⟩ := Run.exists_ok_of_endsIn hends
      have hplain : (World.ofTree brokenTree).tree.Plain := by decide
      obtain ⟨-, hreport, -, hlast⟩ := scaffold_contains_failure rfl hprepare
        (generateFromDocument_of_refused hpreflight {} (smallProjectOf "d.json"))
      obtain ⟨-, herror, -, hinstalled, -⟩ := hreport report after hok
      obtain ⟨hwhy, -, hconfined⟩ := hlast hpreflight
      have hchanged := hconfined hplain
      rw [hok] at hchanged
      exact ⟨staged, failed, report, after, hprepare, hok, herror, hinstalled, hwhy, hchanged⟩

/-- A host whose generator fails after it put these entries into the tree. -/
def failingHost (entries : List (Location × Entry)) : Host := puttingHost entries (.code 3)

/-- The small tree with a symbolic link in place of the module, which leads to a file that every
project has. -/
def linkedTree : FileTree :=
  smallTree.put ["a-s", "src", "modules", "s", "s.module.ts"] (.link "../../../package.json")

/-- The file of the package is another one than after a generation that succeeds if the module's path
leads to it, or if the generator wrote it; and through the module's path it is changed even if the
document was refused. -/
theorem exists_package_of_failure :
    (∃ report after other afterOther,
      scaffold (failingHost []) {} (smallProject ".") (.ofTree linkedTree) = .ok report after ∧
      report.openApiFailure? = some (.generator (.code 3)) ∧
      scaffold idleHost {} (smallProject ".") (.ofTree linkedTree) = .ok other afterOther ∧
      other.openApiFailure? = none ∧
      after.tree.read "a-s/package.json" ≠ afterOther.tree.read "a-s/package.json") ∧
    (∃ report after other afterOther,
      scaffold (failingHost [(["a-s", "package.json"], .file (.text "{}"))]) {} (smallProject ".")
        (.ofTree smallTree) = .ok report after ∧
      report.openApiFailure? = some (.generator (.code 3)) ∧
      scaffold idleHost {} (smallProject ".") (.ofTree smallTree) = .ok other afterOther ∧
      other.openApiFailure? = none ∧
      after.tree.read "a-s/package.json" ≠ afterOther.tree.read "a-s/package.json") ∧
    ∃ staged report after,
      prepare (smallProjectOf "d.json") (.ofTree linkedTree) = .ok () staged ∧
      scaffold idleHost {} (smallProjectOf "d.json") (.ofTree linkedTree) = .ok report after ∧
      report.openApiFailure? = some (.readDocument "d.json" .notFound) ∧
      after.tree.read "a-s/package.json" ≠ staged.tree.read "a-s/package.json" := by
  let differ (first second : FileTree) : Prop :=
    first.read "a-s/package.json" ≠ second.read "a-s/package.json"
  have hlinked : Run.bothEndIn (fun report after other afterOther =>
      report.openApiFailure? = some (.generator (.code 3)) ∧ other.openApiFailure? = none ∧
        differ after afterOther)
      (scaffold (failingHost []) {} (smallProject ".") (.ofTree linkedTree))
      (scaffold idleHost {} (smallProject ".") (.ofTree linkedTree)) = true := by
    decide +kernel
  have hwritten : Run.bothEndIn (fun report after other afterOther =>
      report.openApiFailure? = some (.generator (.code 3)) ∧ other.openApiFailure? = none ∧
        differ after afterOther)
      (scaffold (failingHost [(["a-s", "package.json"], .file (.text "{}"))]) {} (smallProject ".")
        (.ofTree smallTree))
      (scaffold idleHost {} (smallProject ".") (.ofTree smallTree)) = true := by
    decide +kernel
  have hrefused : Run.bothEndIn (fun _ staged report after =>
      report.openApiFailure? = some (.readDocument "d.json" .notFound) ∧ differ after staged)
      (prepare (smallProjectOf "d.json") (.ofTree linkedTree))
      (scaffold idleHost {} (smallProjectOf "d.json") (.ofTree linkedTree)) = true := by
    decide +kernel
  refine ⟨?_, ?_, ?_⟩
  · obtain ⟨report, after, other, afterOther, hok, hother, hcheck⟩ := Run.exists_ok_of_bothEndIn hlinked
    obtain ⟨hfailed, hsucceeded, hdiffer⟩ := of_decide_eq_true hcheck
    exact ⟨report, after, other, afterOther, hok, hfailed, hother, hsucceeded, hdiffer⟩
  · obtain ⟨report, after, other, afterOther, hok, hother, hcheck⟩ := Run.exists_ok_of_bothEndIn hwritten
    obtain ⟨hfailed, hsucceeded, hdiffer⟩ := of_decide_eq_true hcheck
    exact ⟨report, after, other, afterOther, hok, hfailed, hother, hsucceeded, hdiffer⟩
  · obtain ⟨⟨⟩, staged, report, after, hprepare, hok, hcheck⟩ := Run.exists_ok_of_bothEndIn hrefused
    obtain ⟨hfailed, hdiffer⟩ := of_decide_eq_true hcheck
    exact ⟨staged, report, after, hprepare, hok, hfailed, hdiffer⟩

end Project

end ServiceScaffold
