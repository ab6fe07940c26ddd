import ServiceScaffold.Proofs.Project.Failure
import ServiceScaffold.Proofs.Project.History

/-! # A project without a document

Unless it is told to write over what is there, a run without a document fills vacancies only, up to the
module: the directories of the project are created first, so it sees every file that it would write
over. The module is written in any case, and at the end two directories are removed if they hold
nothing.
-/

namespace ServiceScaffold

open FileTree

namespace Permit

/-- Something comes where nothing was. -/
def fillsVacancies : Permit := fun _ old _ => old = none

theorem transitive_fillsVacancies : fillsVacancies.Transitive := fun _ _ _ _ hfirst _ => hfirst

/-- Something comes to a place that was vacant in a tree, whatever came to it since. -/
def comesToVacancies (base : FileTree) : Permit := fun place _ _ => base.entry? place = none

theorem transitive_comesToVacancies (base : FileTree) : (comesToVacancies base).Transitive :=
  fun _ _ _ _ hfirst _ => hfirst

/-- A directory at this place stays. -/
def sparesDirAt (spot : Location) : Permit := fun place old _ => place = spot → old ≠ some .dir

theorem transitive_sparesDirAt (spot : Location) : (sparesDirAt spot).Transitive :=
  fun _ _ _ _ hfirst _ => hfirst

end Permit

/-! ## Writing where nothing is -/

section

variable {base tree : FileTree} {path dir name : Path} {content : Text} {world : World}

theorem FileTree.Confined.extends_of_fillsVacancies (hconfined : Confined .fillsVacancies base tree) :
    Extends base tree := hconfined.extends fun _ _ _ hvacant => hvacant

theorem Change.fillsVacancies_makeDirAll (path : Path) :
    (Change.makeDirAll path).Keeps (Confined .fillsVacancies base) :=
  Change.confined_of_creates Permit.transitive_fillsVacancies fun _ _ _ _ _ => rfl

theorem Change.comesToVacancies_makeDirAll (path : Path) :
    (Change.makeDirAll path).Keeps (Confined (.comesToVacancies base) base) := by
  refine Change.confined_of_creates (Permit.transitive_comesToVacancies base)
    fun tree hconfined place hnone _ => ?_
  exact (hconfined.entries place).elim (fun hsame => hsame.symm.trans hnone) id

/-- What is not seen in a directory that is there is not there. -/
theorem Change.comesToVacancies_writeFile (hfree : base.LinkFree) (hname : Path.IsSegment name)
    (hdirs : base.Passable (base.startOf dir) dir.steps)
    (hunseen : ¬ base.holds (Path.join dir name) = true) (content : Content) :
    (Change.writeFile (Path.join dir name) content).Keeps (Confined (.comesToVacancies base) base) := by
  intro tree hconfined
  cases hresult : Change.writeFile (Path.join dir name) content tree with
  | error fault after =>
      obtain rfl := writeFile_error hresult
      exact hconfined
  | ok value after =>
      have hvacant : base.entry? (base.placeOf (Path.join dir name)) = none := by
        by_contra hthere
        exact hunseen (holds_join_of_writeFile hname hfree hconfined.plain.linkFree hresult hdirs hthere)
      have hwritten : (Change.writeFile (Path.join dir name) content).Keeps
          (Confined (.comesToVacancies base) base) :=
        Change.confined_of_writes (Permit.transitive_comesToVacancies base) fun _ _ => hvacant
      exact hwritten.of_ok hresult hconfined

/-- Nothing is written over in a directory that is there. -/
theorem Run.confined_writeUnlessThere (hplain : world.tree.Plain) (hname : Path.IsSegment name)
    (hdirs : world.tree.Passable (world.tree.startOf dir) dir.steps) :
    Confined .fillsVacancies world.tree
      (lastState (Run.writeUnlessThere (Path.join dir name) content false world)).tree := by
  have hlast : Confined (.comesToVacancies world.tree) world.tree
      (lastState (Run.writeUnlessThere (Path.join dir name) content false world)).tree := by
    unfold Run.writeUnlessThere
    refine Run.holds_bind (.refl hplain) fun tree middle htree hmiddle => ?_
    obtain ⟨rfl, rfl⟩ := EStateM.Result.ok.inj htree
    split
    · exact ((Run.keeps_log _).bind fun _ => (Run.keeps_tell _).bind fun _ => Run.keeps_pure _) _ hmiddle
    next hunseen =>
      have hwritten := Run.keeps_change (Change.comesToVacancies_writeFile hplain.linkFree hname hdirs
        (by simpa using hunseen) (.text content)) Failure.write
      split
      · exact ((Run.keeps_change (Change.comesToVacancies_makeDirAll _) _).bind fun _ =>
          hwritten.bind fun _ => Run.keeps_pure _) _ hmiddle
      · exact (hwritten.bind fun _ => Run.keeps_pure _) _ hmiddle
  exact ⟨hlast.plain, hlast.workingDir, hlast.entries⟩

theorem Run.fillsVacancies_writeUnlessThere (hname : Path.IsSegment name)
    (hdirs : base.Passable (base.startOf dir) dir.steps) :
    (Run.writeUnlessThere (Path.join dir name) content false).Keeps (Confined .fillsVacancies base) := by
  intro world hconfined
  refine hconfined.trans Permit.transitive_fillsVacancies ?_
  refine Run.confined_writeUnlessThere hconfined.plain hname ?_
  exact hconfined.extends_of_fillsVacancies.passable hdirs

end

namespace Project

variable {host : Host} {settings : Settings} {options : ProjectOptions} {world staged : World}
variable {base tree : FileTree}

/-! ## Up to the module -/

theorem passable_of_controllerDir (hfault : options.fault? = none)
    (hdirs : tree.Passable (tree.startOf options.controllerDir) options.controllerDir.steps) :
    tree.Passable (tree.startOf options.root) options.root.steps ∧
      tree.Passable (tree.startOf (Path.join options.root "src")) (Path.join options.root "src").steps ∧
      tree.Passable (tree.startOf options.moduleDir) options.moduleDir.steps := by
  have hmodule := ((passable_join_iff (by decide)).mp hdirs).1
  have hmodules := ((passable_join_iff (ProjectOptions.isSegment_service hfault)).mp hmodule).1
  have hsource := ((passable_join_iff (by decide)).mp hmodules).1
  exact ⟨((passable_join_iff (by decide)).mp hsource).1, hsource, hmodule⟩

theorem fillsVacancies_stage (hfault : options.fault? = none) (hforce : options.force = false)
    (hdirs : base.Passable (base.startOf options.controllerDir) options.controllerDir.steps) :
    (stage options options.root).Keeps (Confined .fillsVacancies base) := by
  obtain ⟨hroot, hsource, -⟩ := passable_of_controllerDir hfault hdirs
  refine keeps_stage fun file hfile => ?_
  rw [hforce]
  obtain ⟨name, ⟨hname, -⟩, hpath | hpath⟩ := exists_name_of_plannedFiles hfile
  · exact hpath ▸ Run.fillsVacancies_writeUnlessThere hname hroot
  · exact hpath ▸ Run.fillsVacancies_writeUnlessThere hname hsource

theorem prepare_fillsVacancies (hforce : options.force = false) (hplain : world.tree.Plain) :
    Confined .fillsVacancies world.tree (lastState (prepare options world)).tree := by
  unfold prepare
  cases hfault : options.fault? with
  | some failure => exact .refl hplain
  | none =>
      refine Run.holds_bind (Run.keeps_createDir (Change.fillsVacancies_makeDirAll _) world (.refl hplain))
        fun _ first hcreate hfirst => ?_
      -- from here on the directories that files are written to are there
      have hdirs := Change.passable_of_makeDirAll_join hplain (by decide) (Run.tree_of_change_ok hcreate)
      refine hfirst.trans Permit.transitive_fillsVacancies ?_
      refine ((Run.keeps_createDir (Change.fillsVacancies_makeDirAll _)).bind fun _ => Run.Keeps.bind ?_
        fun _ => Run.keeps_log _) first (.refl hfirst.plain)
      exact fillsVacancies_stage hfault hforce hdirs

theorem writeStarter_fillsVacancies (hfault : options.fault? = none) (hforce : options.force = false)
    (hdirs : base.Passable (base.startOf options.controllerDir) options.controllerDir.steps) :
    (writeStarter options).Keeps (Confined .fillsVacancies base) := by
  unfold writeStarter
  rw [hforce]
  refine (Run.fillsVacancies_writeUnlessThere (isSegment_starterFile hfault) hdirs).bind fun written => ?_
  split
  · exact (Run.keeps_tell _).bind fun _ => Run.keeps_pure _
  · exact Run.keeps_pure _

/-! ## The module and the empty directories -/

theorem finish_sparesDirAt (hfault : options.fault? = none) (contents : ModuleContents) :
    (finish options contents).Keeps
      (Confined (.sparesDirAt (base.placeOf (modulePath options))) base) := by
  have htrans := Permit.transitive_sparesDirAt (base.placeOf (modulePath options))
  have hremove {path : Path} (hpath : path ∈ removedDirs options) :
      (Change.removeDir path).Keeps
        (Confined (.sparesDirAt (base.placeOf (modulePath options))) base) :=
    Change.confined_of_removesDir htrans fun _ _ _ hplace =>
      absurd hplace.symm (modulePath_ne_removedDir hfault base hpath)
  refine keeps_finish_below hfault (Change.keptBelow_confined htrans ?_ ?_)
    (hremove (by simp [removedDirs])) (hremove (by simp [removedDirs])) contents
  · exact fun _ _ _ _ _ => by simp [Permit.sparesDirAt]
  · exact fun _ _ _ _ _ hdir _ => hdir

/-! ## What is kept -/

/-- What a run without a document may do: fill vacancies, write the module over a file, and remove the
two directories if they hold nothing. -/
def starts (tree : FileTree) (options : ProjectOptions) : Permit := fun place old new =>
  old = none ∨
    (place = tree.placeOf (modulePath options) ∧ (∃ content, old = some (.file content)) ∧
      new = some (.file (.text
        (serviceModule options.serviceClass (starterContents options).controllers [])))) ∨
    ((∃ path ∈ removedDirs options, place = tree.placeOf path) ∧ old = some .dir ∧
      (∀ name, tree.entry? (place ++ [name]) = none) ∧ new = none)

/-- What was there before vacancies were filled is spared as what was there after that. -/
theorem starts_of_finishes (hfault : options.fault? = none)
    (hfilled : Confined .fillsVacancies world.tree staged.tree)
    (hdirs : staged.tree.Passable (staged.tree.startOf options.moduleDir) options.moduleDir.steps) :
    Confined (starts world.tree options) world.tree
      (lastState (finish options (starterContents options) staged)).tree := by
  obtain ⟨hplain, hworking, hentries⟩ := finish_finishes hfault hfilled.plain hdirs (starterContents options)
  have hdirAt := finish_sparesDirAt hfault (starterContents options) staged (.refl hfilled.plain)
  have hextends := hfilled.extends_of_fillsVacancies
  refine ⟨hplain, hworking.trans hfilled.workingDir, fun place => ?_⟩
  cases hold : world.tree.entry? place with
  | none => exact Or.inr (Or.inl rfl)
  | some entry =>
      have hstaged := hextends.entries place entry hold
      rcases hentries place with hsame | ⟨hmodule, hnew⟩ | ⟨⟨path, hpath, hplace⟩, hdir, hempty, hnew⟩
      · exact Or.inl (hsame.trans hstaged)
      · refine Or.inr (Or.inr (Or.inl ⟨hmodule.trans (placeOf_congr hfilled.workingDir _), ?_, hnew⟩))
        cases entry with
        | file content => exact ⟨content, rfl⟩
        | link target => exact absurd hstaged (hfilled.plain.linkFree.entry?_ne_link _ _)
        | dir =>
            -- a directory in the place of the module is not written over
            rcases hdirAt.entries place with hsame | hspared
            · rw [hsame, hstaged] at hnew
              cases hnew
            · exact absurd hstaged (hspared hmodule)
      · refine Or.inr (Or.inr (Or.inr ⟨⟨path, hpath, ?_⟩, ?_, fun name => ?_, hnew⟩))
        · exact hplace.trans (placeOf_congr hfilled.workingDir _)
        · exact hstaged.symm.trans hdir
        · by_contra hthere
          obtain ⟨child, hchild⟩ := Option.ne_none_iff_exists'.mp hthere
          cases (hextends.entries _ child hchild).symm.trans (hempty name)

theorem scaffold_starts (hplain : world.tree.Plain) (hdocument : options.document? = none)
    (hforce : options.force = false) (host : Host) (settings : Settings) :
    Confined (starts world.tree options) world.tree
      (lastState (scaffold host settings options world)).tree := by
  have hstarts {after : FileTree} (hfilled : Confined .fillsVacancies world.tree after) :
      Confined (starts world.tree options) world.tree after := hfilled.mono fun _ _ _ => Or.inl
  have hprepared := prepare_fillsVacancies hforce hplain
  rw [scaffold_eq]
  refine Run.holds_bind (hstarts hprepared) fun _ prepared hprepare _ => ?_
  rw [hprepare] at hprepared
  have hfault := fault?_of_prepare_ok hprepare
  obtain ⟨hplainPrepared, hdirs⟩ := passable_of_prepare hplain hprepare
  have hkeeps := writeStarter_fillsVacancies hfault hforce hdirs
  have hstarter := hkeeps prepared (.refl hplainPrepared)
  rw [writeContents_of_none hdocument, bind_assoc]
  refine Run.holds_bind (hstarts (hprepared.trans Permit.transitive_fillsVacancies hstarter))
    fun contents started hok _ => ?_
  have hstarted := hkeeps.of_ok hok (.refl hplainPrepared)
  have hmodule : started.tree.Passable (started.tree.startOf options.moduleDir) options.moduleDir.steps :=
    hstarted.extends_of_fillsVacancies.passable (passable_of_controllerDir hfault hdirs).2.2
  obtain ⟨rfl, -⟩ := writeStarter_ok hfault hplainPrepared hdirs hok
  rw [pure_bind]
  exact Run.holds_bind (starts_of_finishes hfault (hprepared.trans Permit.transitive_fillsVacancies hstarted)
    hmodule) fun _ _ _ hfinished => hfinished

/-- Without a document, and without being told to write over what is there, a run keeps every file but
the module, whether it succeeds or fails, and every directory but two that hold nothing. -/
theorem scaffold_keeps_work (hplain : world.tree.Plain) (hdocument : options.document? = none)
    (hforce : options.force = false) (host : Host) (settings : Settings) :
    (∀ place content, world.tree.entry? place = some (.file content) →
      (lastState (scaffold host settings options world)).tree.entry? place = some (.file content) ∨
      place = world.tree.placeOf (modulePath options) ∧
        (lastState (scaffold host settings options world)).tree.entry? place = some (.file (.text
          (serviceModule options.serviceClass (starterContents options).controllers [])))) ∧
    (∀ place, world.tree.entry? place = some .dir →
      (lastState (scaffold host settings options world)).tree.entry? place = some .dir ∨
      (∃ path ∈ removedDirs options, place = world.tree.placeOf path) ∧
        (∀ name, world.tree.entry? (place ++ [name]) = none) ∧
        (lastState (scaffold host settings options world)).tree.entry? place = none) := by
  obtain ⟨-, -, hentries⟩ := scaffold_starts hplain hdocument hforce host settings
  refine ⟨fun place content hfile => ?_, fun place hdir => ?_⟩
  · rcases hentries place with hsame | hvacant | ⟨hmodule, -, hnew⟩ | ⟨-, hdir, -⟩
    · exact Or.inl (hsame.trans hfile)
    · cases hfile.symm.trans hvacant
    · exact Or.inr ⟨hmodule, hnew⟩
    · cases hfile.symm.trans hdir
  · rcases hentries place with hsame | hvacant | ⟨-, ⟨content, hfile⟩, -⟩ | ⟨hremoved, -, hempty, hnew⟩
    · exact Or.inl (hsame.trans hdir)
    · cases hdir.symm.trans hvacant
    · cases hdir.symm.trans hfile
    · exact Or.inr ⟨hremoved, hempty, hnew⟩

/-- The small project without a document. -/
def starterProject : ProjectOptions := { smallProject "." with document? := none }

/-- The small tree with a package of its own. -/
def workTree : FileTree := smallTree.put ["a-s", "package.json"] (.file (.text "{}"))

theorem scaffold_keeps_work_starterProject :
    ∃ report after, scaffold idleHost {} starterProject (.ofTree workTree) = .ok report after ∧
      after.tree.entry? ["a-s", "package.json"] = some (.file (.text "{}")) ∧
      after.tree.entry? ["a-s", "src", "modules", "s", "services"] = some .dir := by
  have hok : Run.isOk (scaffold idleHost {} starterProject (.ofTree workTree)) = true := by
    decide +kernel
  obtain ⟨report, after, hok⟩ := Run.exists_ok_of_isOk hok
  have hplain : (World.ofTree workTree).tree.Plain := by decide +kernel
  have hdocument : starterProject.document? = none := rfl
  obtain ⟨hfiles, hdirs⟩ := scaffold_keeps_work hplain hdocument rfl idleHost {}
  rw [hok] at hfiles hdirs
  refine ⟨report, after, hok, ?_, ?_⟩
  · refine (hfiles ["a-s", "package.json"] (.text "{}") (by decide +kernel)).resolve_right fun h => ?_
    exact absurd h.1 (by decide +kernel)
  · -- the directory of the services holds one
    refine (hdirs ["a-s", "src", "modules", "s", "services"] (by decide +kernel)).resolve_right fun h => ?_
    exact absurd (h.2.1 "pet.service.ts") (by decide +kernel)

end Project

end ServiceScaffold
