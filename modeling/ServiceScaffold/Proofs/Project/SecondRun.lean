import ServiceScaffold.Proofs.Project.Starter
import ServiceScaffold.Proofs.Run.Settled

/-! # The same project again

A run without a document leaves a project behind that is built: its directories were created, and what it
writes is settled. The run itself takes no more away from that than the two directories that hold nothing.
A second run creates again what is missing of them, finds everything else done, and removes them again.
-/

namespace ServiceScaffold

open FileTree

section

variable {base before after : FileTree} {path dir name : Path} {content : Text} {force : Bool}
variable {kept : Location → Prop} {spot : Location}

theorem Run.spares_writeUnlessThere (hne : base.placeOf path ≠ spot) (content : Text) (force : Bool) :
    (Run.writeUnlessThere path content force).Keeps (Confined (.spares (· = spot)) base) := by
  have htrans := Permit.transitive_spares (· = spot)
  refine Run.keeps_writeUnlessThere (fun parent _ => ?_) ?_
  · exact Change.confined_of_creates htrans fun _ _ _ _ _ _ hthere => absurd rfl hthere
  · exact Change.confined_of_writes htrans fun _ _ hspot => absurd hspot hne

/-- The path can be given, and leads through directories. -/
structure FileTree.Reached (tree : FileTree) (path : Path) : Prop where
  acceptable : Acceptable path
  passable : tree.Passable (tree.startOf path) path.steps

theorem FileTree.Reached.of_sparesDirs (hreached : before.Reached path)
    (hspared : Confined .sparesDirs before after) : after.Reached path :=
  ⟨hreached.acceptable, hspared.passable hreached.passable⟩

theorem Run.reached_of_createDir {world last : World} (hplain : world.tree.Plain)
    (hname : Path.IsSegment name) (hok : Run.createDir (Path.join dir name) world = .ok () last) :
    last.tree.Reached (Path.join dir name) :=
  have hmake := Run.tree_of_change_ok hok
  ⟨Change.acceptable_of_makeDirAll_join hname hmake, Change.passable_of_makeDirAll_join hplain hname hmake⟩

theorem FileTree.Settled.of_spares (hsettled : Settled before dir name content force)
    (hspared : Confined (.spares kept) before after) (hkept : kept (before.placeOf (Path.join dir name))) :
    Settled after dir name content force :=
  hsettled.congr hspared.workingDir
    ((hspared.entries _).elim id fun hspares => hspares hkept hsettled.there)

end

namespace Project

variable {host : Host} {settings : Settings} {options : ProjectOptions} {contents : ModuleContents}
variable {world staged told after : World} {report : Report} {files : List PlannedFile}
variable {tree full restored : FileTree} {place : Location}
variable {dir name : Path} {content : Text} {force : Bool}

/-! ## Planned files -/

/-- Where the files that every project has stand under its directory. -/
def plannedNames : List (List Text) :=
  [["package.json"], ["tsconfig.json"], ["nest-cli.json"], [".prettierrc"], [".eslintrc.json"],
    [".gitignore"], [".editorconfig"], ["jest.config.js"], ["README.md"], ["src", "main.ts"],
    ["src", "app.module.ts"]]

theorem placesOf_plannedFiles (options : ProjectOptions) (tree : FileTree) :
    ((plannedFiles options options.root).map fun file => tree.placeOf file.path) =
      plannedNames.map (tree.placeOf options.root ++ ·) := by
  have hroot {name : Text} (hname : Path.IsSegment name) :
      tree.placeOf (Path.join options.root name) = tree.placeOf options.root ++ [name] :=
    placeOf_join hname _ _
  have hsource {name : Text} (hname : Path.IsSegment name) :
      tree.placeOf (Path.join (Path.join options.root "src") name) =
        tree.placeOf options.root ++ (["src", name] : List Text) :=
    placeOf_below ((ProjectOptions.below_root (by decide) options).join hname)
  simp only [plannedFiles, plannedNames, List.map_cons, List.map_nil]
  rw [hroot (by decide), hroot (by decide), hroot (by decide), hroot (by decide), hroot (by decide),
    hroot (by decide), hroot (by decide), hroot (by decide), hroot (by decide), hsource (by decide),
    hsource (by decide)]

theorem nodup_plannedFiles (options : ProjectOptions) (tree : FileTree) :
    ((plannedFiles options options.root).map fun file => tree.placeOf file.path).Nodup := by
  rw [placesOf_plannedFiles]
  exact List.Nodup.map (List.append_right_injective _) (by decide)

/-- Files at places that differ are settled once all of them are written. -/
theorem settled_of_writePlanned (hplain : world.tree.Plain)
    (hdiffer : (files.map fun file => world.tree.placeOf file.path).Nodup)
    (hok : writePlanned force files world = .ok () after)
    (hname : Path.IsSegment name) (hmem : ⟨Path.join dir name, content⟩ ∈ files) :
    after.tree.Settled dir name content force := by
  induction files generalizing world with
  | nil => cases hmem
  | cons file files ih =>
      obtain ⟨written, middle, hwrite, hothers⟩ := Run.bind_eq_ok_iff.mp hok
      obtain ⟨hfirst, hrest⟩ := List.nodup_cons.mp hdiffer
      have hmiddle := (kept_plain.writeUnlessThere _ _ _).of_ok hwrite hplain
      have hplaceOf := placeOf_congr (Run.workingDir_of_writeUnlessThere hplain hwrite)
      rcases List.mem_cons.mp hmem with rfl | hmem
      · -- the files after it are written elsewhere
        have hspared : (writePlanned force files).Keeps
            (Confined (.spares (· = middle.tree.placeOf (Path.join dir name))) middle.tree) := by
          refine keeps_writePlanned fun file hfile => Run.spares_writeUnlessThere (fun heq => hfirst ?_) _ _
          rw [hplaceOf, hplaceOf] at heq
          exact List.mem_map.mpr ⟨file, hfile, heq⟩
        exact (Run.settled_of_writeUnlessThere hplain hname hwrite).of_spares
          (hspared.of_ok hothers (.refl hmiddle)) rfl
      · exact ih hmiddle (by simpa only [hplaceOf] using hrest) hothers hmem

/-! ## A built project -/

/-- The directories of a project are there, and the files that every project has are settled. -/
structure Prepared (options : ProjectOptions) (tree : FileTree) : Prop where
  plain : tree.Plain
  grounded : tree.Grounded tree.workingDir
  controllers : tree.Reached options.controllerDir
  services : tree.Reached options.serviceDir
  planned : ∀ {dir name content}, Path.IsSegment name →
    ⟨Path.join dir name, content⟩ ∈ plannedFiles options options.root →
    tree.Settled dir name content options.force

/-- The controller to start with is settled too, and so is the module that lists it. -/
structure Built (options : ProjectOptions) (tree : FileTree) : Prop extends Prepared options tree where
  starter : tree.Settled options.controllerDir (options.service ++ controllerSuffix)
    (starterController options.service (options.serviceClass ++ "Controller") options.service) options.force
  finished : tree.Settled options.moduleDir (options.service ++ ".module.ts")
    (serviceModule options.serviceClass (starterContents options).controllers []) true

theorem Prepared.of_spares (hprepared : Prepared options tree) (hdirs : Confined .sparesDirs tree full)
    (hfiles : Confined (.spares (Planned tree options)) tree full) : Prepared options full where
  plain := hdirs.plain
  grounded := by
    intro front hfront
    rw [hdirs.workingDir] at hfront
    exact hdirs.dir (hprepared.grounded front hfront)
  controllers := hprepared.controllers.of_sparesDirs hdirs
  services := hprepared.services.of_sparesDirs hdirs
  planned := fun hname hmem => (hprepared.planned hname hmem).of_spares hfiles ⟨_, hmem, rfl⟩

theorem prepared_of_prepare (hplain : world.tree.Plain) (hground : world.tree.Grounded world.tree.workingDir)
    (hok : prepare options world = .ok () staged) : Prepared options staged.tree := by
  have hfault := fault?_of_prepare_ok hok
  rw [prepare, hfault] at hok
  obtain ⟨⟨⟩, first, hcontrollers, hok⟩ := Run.bind_eq_ok_iff.mp hok
  obtain ⟨⟨⟩, second, hservices, hok⟩ := Run.bind_eq_ok_iff.mp hok
  obtain ⟨⟨⟩, third, hstage, hok⟩ := Run.bind_eq_ok_iff.mp hok
  cases hok
  have hkept (base : FileTree) := Change.keptBelow_sparesDirs options.root base
  have hmodule := ProjectOptions.below_moduleDir hfault
  have hfirst : Confined .sparesDirs world.tree first.tree :=
    ((hkept _).createDir (hmodule.trans (ProjectOptions.below_controllerDir options))).of_ok hcontrollers
      (.refl hplain)
  have hsecond : Confined .sparesDirs first.tree second.tree :=
    ((hkept _).createDir (hmodule.trans (ProjectOptions.below_serviceDir options))).of_ok hservices
      (.refl hfirst.plain)
  have hthird : Confined .sparesDirs second.tree third.tree :=
    (keeps_stage_below (hkept _)).of_ok hstage (.refl hsecond.plain)
  have hlater := hsecond.trans Permit.transitive_sparesDirs hthird
  have hall := hfirst.trans Permit.transitive_sparesDirs hlater
  refine ⟨hthird.plain, fun front hfront => ?_, ?_, ?_, fun hname hmem => ?_⟩
  · exact hall.dir (hground front (hall.workingDir ▸ hfront))
  · exact (Run.reached_of_createDir hplain (by decide) hcontrollers).of_sparesDirs hlater
  · exact (Run.reached_of_createDir hfirst.plain (by decide) hservices).of_sparesDirs hthird
  · have hsettled := settled_of_writePlanned hsecond.plain (nodup_plannedFiles options _) hstage hname hmem
    exact hsettled

theorem Prepared.built (hprepared : Prepared options staged.tree) (hfault : options.fault? = none)
    (hstarter : writeStarter options staged = .ok contents told) {written : Bool}
    (hmodule : Run.writeUnlessThere (modulePath options) (serviceModule options.serviceClass
      (starterContents options).controllers []) true told = .ok written after) :
    Built options after.tree := by
  have hkept {holds : FileTree → Prop} (hkept : Change.KeptBelow options.moduleDir holds)
      (hstaged : holds staged.tree) : holds after.tree :=
    (hkept.writeUnlessThere (below_modulePath hfault) (by simp) _ _).of_ok hmodule
      ((keeps_writeStarter_below hfault hkept).of_ok hstarter hstaged)
  have hdirs := hkept (Change.keptBelow_sparesDirs _ staged.tree) (.refl hprepared.plain)
  have hfiles : Confined (.spares (Planned staged.tree options)) staged.tree after.tree :=
    hkept (keptBelow_spares hfault) (.refl hprepared.plain)
  obtain ⟨-, wrote, first, hwrite, htree⟩ := writeStarter_eq_ok hstarter
  have hsettled := Run.settled_of_writeUnlessThere hprepared.plain (isSegment_starterFile hfault) hwrite
  have htold := (keeps_writeStarter_below hfault kept_plain.below).of_ok hstarter hprepared.plain
  rw [← htree] at hsettled
  refine ⟨hprepared.of_spares hdirs hfiles, ?_, ?_⟩
  · refine hsettled.of_spares ((Run.spares_writeUnlessThere ?_ _ _).of_ok hmodule (.refl htold)) rfl
    exact (starter_ne_modulePath hfault).symm
  · exact Run.settled_of_writeUnlessThere htold (isSegment_moduleFile hfault) hmodule

/-! ## Directories that are removed at the end -/

/-- Is it the place of a directory that is removed if it holds nothing? -/
def Removable (tree : FileTree) (options : ProjectOptions) (place : Location) : Prop :=
  ∃ path ∈ removedDirs options, place = tree.placeOf path

theorem Removable.exists_name (hremovable : Removable tree options place) :
    ∃ name, place = tree.placeOf options.moduleDir ++ [name] := by
  obtain ⟨path, hpath, rfl⟩ := hremovable
  obtain ⟨name, -, hplace⟩ := placeOf_removedDir tree hpath
  exact ⟨name, hplace⟩

theorem Removable.apart (hremovable : Removable tree options place) (name : Text) :
    ¬ Removable tree options (place ++ [name]) := by
  intro hchild
  obtain ⟨first, rfl⟩ := hremovable.exists_name
  obtain ⟨second, hsecond⟩ := hchild.exists_name
  simpa using congrArg List.length hsecond

theorem not_removable_of_planned (hfault : options.fault? = none) (hplanned : Planned tree options place) :
    ¬ Removable tree options place := by
  intro hremovable
  obtain ⟨name, rfl⟩ := hremovable.exists_name
  exact not_inside_of_planned hfault hplanned (List.prefix_append _ _)

theorem not_removable_starter (hfault : options.fault? = none) :
    ¬ Removable tree options (tree.placeOf (starterPath options)) := by
  intro hremovable
  obtain ⟨name, hplace⟩ := hremovable.exists_name
  rw [starterPath, placeOf_join (isSegment_starterFile hfault), placeOf_controllerDir] at hplace
  simpa using congrArg List.length hplace

theorem not_removable_modulePath (hfault : options.fault? = none) :
    ¬ Removable tree options (tree.placeOf (modulePath options)) :=
  fun ⟨_, hpath, hplace⟩ => modulePath_ne_removedDir hfault tree hpath hplace

/-- The tree after the end of a run, which removes both directories if they hold nothing. -/
def withoutEmptyDirs (options : ProjectOptions) (tree : FileTree) : FileTree :=
  (tree.withoutEmptyDir (Path.join options.moduleDir "model")).withoutEmptyDir options.serviceDir

theorem pruned_withoutEmptyDirs (options : ProjectOptions) (hplain : full.Plain) :
    Pruned (Removable full options) (withoutEmptyDirs options full) full := by
  have hmodel : Path.IsSegment "model" := by decide
  have hservices : Path.IsSegment "services" := by decide
  have hfirst : Pruned (Removable full options)
      (full.withoutEmptyDir (Path.join options.moduleDir "model")) full :=
    (pruned_withoutEmptyDir hmodel hplain.linkFree).mono fun place hplace =>
      ⟨_, by simp [removedDirs], hplace⟩
  have hworking := withoutEmptyDir_workingDir full (Path.join options.moduleDir "model")
  refine Pruned.trans ((pruned_withoutEmptyDir hservices (hplain.withoutEmptyDir _).linkFree).mono
    fun place hplace => ?_) hfirst fun place name hremovable => hremovable.apart name
  exact ⟨options.serviceDir, by simp [removedDirs], hplace.trans (placeOf_congr hworking _)⟩

theorem leads_removeEmptyDirs (hplain : tree.Plain) :
    (do
      let _ ← Run.removeDirIfEmpty (Path.join options.moduleDir "model")
      let _ ← Run.removeDirIfEmpty options.serviceDir
      Run.tell (.projectGenerated options.root)).Leads tree () (withoutEmptyDirs options tree) := by
  refine (Run.leads_removeDirIfEmpty (by decide) hplain.linkFree).bind ?_
  exact (Run.leads_removeDirIfEmpty (by decide) (hplain.withoutEmptyDir _).linkFree).bind (Run.leads_tell _ _)

/-! ## What a second run does -/

/-- Of the directories that the first tree lacks of the last some are back in the second. -/
structure Restored (gone : Location → Prop) (before tree full : FileTree) : Prop where
  plain : tree.Plain
  grown : Grown before tree
  pruned : Pruned gone tree full

variable {gone : Location → Prop} {before : FileTree}

theorem Restored.leads_createDir (hrestored : Restored gone before tree full)
    (hground : full.Grounded full.workingDir) (hname : Path.IsSegment name)
    (hreached : full.Reached (Path.join dir name)) :
    ∃ next, (Run.createDir (Path.join dir name)).Leads tree () next ∧ Restored gone before next full ∧
      Extends tree next ∧
      next.Passable (next.startOf (Path.join dir name)) (Path.join dir name).steps := by
  obtain ⟨next, hmake, hpruned, hpassable⟩ := Change.makeDirAll_of_pruned hrestored.pruned hrestored.plain
    hground hreached.acceptable (Path.tidy_join dir hname) hreached.passable
  obtain ⟨hplain, hextends⟩ := Change.extends_makeDirAll hrestored.plain (Path.join dir name)
  have hgrown := Change.keeps_grown_makeDirAll (Path.join dir name) tree hrestored.grown
  rw [hmake] at hplain hextends hgrown
  exact ⟨next, Run.leads_change hmake _, ⟨hplain, hgrown, hpruned⟩, hextends, hpassable⟩

theorem leads_writePlanned
    (hfiles : ∀ file ∈ files, (Run.writeUnlessThere file.path file.content force).Leads tree force tree) :
    (writePlanned force files).Leads tree () tree := by
  induction files with
  | nil => exact Run.leads_pure _ _
  | cons file files ih =>
      obtain ⟨hfile, hrest⟩ := List.forall_mem_cons.mp hfiles
      exact hfile.bind (ih hrest)

/-- A prepared project is prepared again by creating what is missing of its directories. -/
theorem Prepared.leads_prepare (hprepared : Prepared options full) (hfault : options.fault? = none)
    (hplain : tree.Plain) (hpruned : Pruned (Removable full options) tree full) :
    ∃ restored, (prepare options).Leads tree () restored ∧
      Restored (Removable full options) tree restored full ∧
      restored.Passable (restored.startOf options.controllerDir) options.controllerDir.steps ∧
      restored.Passable (restored.startOf options.serviceDir) options.serviceDir.steps := by
  obtain ⟨first, hfirst, hmiddle, -, hcontrollers⟩ := Restored.leads_createDir ⟨hplain, .refl tree, hpruned⟩
    hprepared.grounded (by decide) hprepared.controllers
  obtain ⟨restored, hsecond, hrestored, hextends, hservices⟩ :=
    hmiddle.leads_createDir hprepared.grounded (by decide) hprepared.services
  replace hcontrollers := hextends.passable hcontrollers
  obtain ⟨hroot, hsource, -⟩ := passable_of_controllerDir hfault hcontrollers
  have hfree := hrestored.plain.linkFree
  have hstage : (stage options options.root).Leads restored () restored := by
    refine leads_writePlanned fun ⟨path, content⟩ hfile => ?_
    have hkept : ¬ Removable full options (full.placeOf path) :=
      not_removable_of_planned hfault ⟨_, hfile, rfl⟩
    obtain ⟨name, ⟨hname, -⟩, rfl | rfl⟩ := exists_name_of_plannedFiles hfile
    all_goals have hsettled := (hprepared.planned hname hfile).of_pruned hrestored.pruned hkept
    · exact hsettled.leads_writeUnlessThere (ProjectOptions.isSegment_projectName hfault) hname hfree hroot
    · exact hsettled.leads_writeUnlessThere (by decide) hname hfree hsource
  refine ⟨restored, ?_, hrestored, hcontrollers, hservices⟩
  rw [prepare, hfault]
  exact hfirst.bind (hsecond.bind (hstage.bind (Run.leads_log _ _)))

/-- Over a built project a run does no more than to restore directories and to remove them again. -/
theorem Built.leads_scaffold (hbuilt : Built options full) (hfault : options.fault? = none)
    (hdocument : options.document? = none) (hplain : tree.Plain)
    (hpruned : Pruned (Removable full options) tree full) (host : Host) (settings : Settings) :
    ∃ restored, (scaffold host settings options).Leads tree
        ⟨options.root, (starterContents options).written, none⟩ (withoutEmptyDirs options restored) ∧
      Restored (Removable full options) tree restored full ∧
      restored.Passable (restored.startOf options.serviceDir) options.serviceDir.steps := by
  obtain ⟨restored, hprepare, hrestored, hcontrollers, hservices⟩ :=
    hbuilt.leads_prepare hfault hplain hpruned
  obtain ⟨-, -, hmodule⟩ := passable_of_controllerDir hfault hcontrollers
  have hfree := hrestored.plain.linkFree
  have hstarter : (writeStarter options).Leads restored (starterContents options) restored := by
    have hsettled := hbuilt.starter.of_pruned hrestored.pruned (not_removable_starter hfault)
    refine (hsettled.leads_writeUnlessThere (by decide) (isSegment_starterFile hfault) hfree
      hcontrollers).bind ?_
    split
    · exact (Run.leads_tell _ _).bind (Run.leads_pure _ _)
    · exact Run.leads_pure _ _
  have hfinish : (finish options (starterContents options)).Leads restored ()
      (withoutEmptyDirs options restored) := by
    have hsettled := hbuilt.finished.of_pruned hrestored.pruned (not_removable_modulePath hfault)
    exact (hsettled.leads_writeUnlessThere (ProjectOptions.isSegment_service hfault)
      (isSegment_moduleFile hfault) hfree hmodule).bind (leads_removeEmptyDirs hrestored.plain)
  refine ⟨restored, ?_, hrestored, hservices⟩
  have hcontents : (writeContents host settings options).Leads restored (starterContents options, none)
      restored := by
    rw [writeContents_of_none hdocument]
    exact hstarter.bind (Run.leads_pure _ _)
  rw [scaffold_eq]
  exact hprepare.bind (hcontents.bind (hfinish.bind (Run.leads_pure _ _)))

/-- What was restored is removed again, and nothing else. -/
theorem withoutEmptyDirs_restored (hfull : full.Plain)
    (hrestored : Restored (Removable full options) (withoutEmptyDirs options full) restored full)
    (hservices : restored.Passable (restored.startOf options.serviceDir) options.serviceDir.steps) :
    withoutEmptyDirs options restored = withoutEmptyDirs options full := by
  have hmodel : Path.IsSegment "model" := by decide
  have hname : Path.IsSegment "services" := by decide
  obtain ⟨hmodule, -, hthere⟩ := (passable_join_iff hname).mp hservices
  rw [← placeOf_join hname] at hthere
  have hworking := withoutEmptyDir_workingDir full (Path.join options.moduleDir "model")
  -- without the models' directory, if it is empty, both trees look the same
  have hfirst : Alike (full.withoutEmptyDir (Path.join options.moduleDir "model"))
      (restored.withoutEmptyDir (Path.join options.moduleDir "model")) := by
    refine hrestored.pruned.alike_withoutEmptyDir hmodel hfull.linkFree hrestored.plain.linkFree hmodule
      (fun child => ?_) (fun place hremovable hne => ?_) fun hvacant => ?_
    · exact Removable.apart ⟨_, by simp [removedDirs], rfl⟩ child
    · obtain ⟨path, hpath, rfl⟩ := hremovable
      rcases List.mem_cons.mp hpath with rfl | hpath
      · exact absurd rfl hne
      · rw [List.mem_singleton.mp hpath, placeOf_congr hrestored.pruned.workingDir]
        exact hthere
    · have hbefore := hrestored.grown.vacant hvacant
      rw [withoutEmptyDirs, ProjectOptions.serviceDir, entry?_withoutEmptyDir hname, if_neg] at hbefore
      · exact hbefore
      · rintro ⟨-, hplace⟩
        rw [placeOf_congr hworking] at hplace
        exact absurd ((placeOf_join_inj hmodel hname).mp hplace) (by decide)
  have hlast : Alike (withoutEmptyDirs options full) (withoutEmptyDirs options restored) :=
    hfirst.withoutEmptyDir hname (hfull.withoutEmptyDir _).linkFree (hrestored.plain.withoutEmptyDir _).linkFree
  -- what was added to the one tree is gone, so not even the order of the entries differs
  refine Grown.eq ?_ hlast.entries
  refine Grown.withoutEmptyDir (Grown.withoutEmptyDir hrestored.grown hmodel fun place hvacant => ?_) hname
    fun place hvacant => ?_
  · rw [hfirst.entries] at hvacant
    rw [withoutEmptyDirs, ProjectOptions.serviceDir, entry?_withoutEmptyDir hname]
    split
    · rfl
    · exact hvacant
  · exact (hlast.entries place).symm.trans hvacant

/-- In a plain tree, whose working directory is there, a second run without a document comes to the same:
it succeeds with the same report, and leaves the tree exactly as the first run left it, whatever was
printed and logged in between. -/
theorem scaffold_idempotent (hplain : world.tree.Plain)
    (hworking : world.tree.Grounded world.tree.workingDir) (hdocument : options.document? = none)
    (hok : scaffold host settings options world = .ok report after) (other : Host)
    (otherSettings : Settings) (printed : List Output) (logged : List Event) :
    ∃ last, scaffold other otherSettings options ⟨after.tree, printed, logged⟩ = .ok report last ∧
      last.tree = after.tree := by
  rw [scaffold_eq, writeContents_of_none hdocument, bind_assoc] at hok
  obtain ⟨⟨⟩, staged, hprepare, hok⟩ := Run.bind_eq_ok_iff.mp hok
  obtain ⟨contents, told, hstarter, hok⟩ := Run.bind_eq_ok_iff.mp hok
  obtain ⟨rfl, -⟩ := writeStarter_eq_ok hstarter
  rw [pure_bind] at hok
  obtain ⟨⟨⟩, finished, hfinish, hok⟩ := Run.bind_eq_ok_iff.mp hok
  obtain ⟨rfl, rfl⟩ := Run.pure_eq_ok_iff.mp hok
  obtain ⟨written, installed, hmodule, hremove⟩ := Run.bind_eq_ok_iff.mp hfinish
  have hfault := fault?_of_prepare_ok hprepare
  have hbuilt := (prepared_of_prepare hplain hworking hprepare).built hfault hstarter hmodule
  -- the first run ends by removing what is empty, and the second run starts from there
  rw [((leads_removeEmptyDirs hbuilt.plain).unique rfl hremove).2]
  have hpruned := pruned_withoutEmptyDirs options hbuilt.plain
  obtain ⟨restored, hleads, hrestored, hservices⟩ := hbuilt.leads_scaffold hfault hdocument
    ((hbuilt.plain.withoutEmptyDir _).withoutEmptyDir _) hpruned other otherSettings
  obtain ⟨last, hlast, htree⟩ := hleads ⟨_, printed, logged⟩ rfl
  exact ⟨last, hlast, htree.trans (withoutEmptyDirs_restored hbuilt.plain hrestored hservices)⟩

theorem scaffold_idempotent_starterProject :
    ∃ report after last, scaffold idleHost {} starterProject (.ofTree .empty) = .ok report after ∧
      after.tree.isDir "a-s/src/modules/s/services" = false ∧
      scaffold idleHost {} starterProject after = .ok report last ∧ last.tree = after.tree := by
  -- the first run removes the services' directory, so the second one has to create it again
  have hends : Run.endsIn (fun _ tree => !tree.isDir "a-s/src/modules/s/services")
      (scaffold idleHost {} starterProject (.ofTree .empty)) = true := by
    decide +kernel
  obtain ⟨report, after, hok, hgone⟩ := Run.exists_ok_of_endsIn hends
  have hplain : FileTree.empty.Plain := by decide
  have hagain := scaffold_idempotent hplain (grounded_root _) rfl hok
  obtain ⟨last, hlast, htree⟩ := hagain idleHost {} after.printed after.logged
  exact ⟨report, after, last, hok, by simpa using hgone, hlast, htree⟩

end Project

end ServiceScaffold
