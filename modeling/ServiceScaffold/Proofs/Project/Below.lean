import ServiceScaffold.Proofs.Project.Stages
import ServiceScaffold.Proofs.Run.Below
import ServiceScaffold.Proofs.Service.Discovery

/-! # The stages of a project and its directory

Both names of accepted options are ordinary ones, so every path of a project leads down from the
project's directory by names alone. So does whatever is written for a controller, and each stage
keeps what is kept below that directory.
-/

namespace ServiceScaffold

open FileTree

/-! ## Names and paths -/

namespace ProjectOptions

variable {options : ProjectOptions} {label name : Text}

theorem isSegment_of_nameFault? (hname : nameFault? label name = none) : Path.IsSegment name := by
  unfold nameFault? at hname
  split at hname
  · cases hname
  next hblank =>
    split at hname
    · cases hname
    next hsegment =>
      simp only [notOneSegment, Bool.not_eq_true, Bool.or_eq_false_iff, decide_eq_false_iff_not] at hsegment
      obtain ⟨⟨⟨hseparator, -⟩, hhere⟩, hup⟩ := hsegment
      refine ⟨by simpa using hseparator, ?_, hhere, hup⟩
      rintro rfl
      exact hblank rfl

theorem isSegment_service (hfault : options.fault? = none) : Path.IsSegment options.service :=
  isSegment_of_nameFault? (Option.or_eq_none_iff.mp hfault).2

theorem isSegment_projectName (hfault : options.fault? = none) : Path.IsSegment options.projectName := by
  have happlication := isSegment_of_nameFault? (Option.or_eq_none_iff.mp hfault).1
  have hservice := isSegment_service hfault
  have hdash : '-' ∈ options.projectName := by simp [projectName]
  refine ⟨?_, List.ne_nil_of_mem hdash, ?_, ?_⟩
  · have hname : options.projectName = options.application ++ '-' :: options.service := by
      simp [projectName]
    rw [hname, List.mem_append, List.mem_cons]
    rintro (hmem | hmem | hmem)
    · exact happlication.noSeparator hmem
    · cases hmem
    · exact hservice.noSeparator hmem
  all_goals
    intro heq
    rw [heq] at hdash
    revert hdash
    decide

theorem below_root (hname : Path.IsSegment name) (options : ProjectOptions) :
    Path.Below options.root [name] (Path.join options.root name) := (Path.Below.refl _).join hname

theorem below_moduleDir (hfault : options.fault? = none) :
    Path.Below options.root ["src", "modules", options.service] options.moduleDir :=
  (((Path.Below.refl _).join (by decide)).join (by decide)).join (isSegment_service hfault)

theorem below_inModule (hname : Path.IsSegment name) (options : ProjectOptions) :
    Path.Below options.moduleDir [name] (Path.join options.moduleDir name) :=
  (Path.Below.refl _).join hname

theorem below_controllerDir (options : ProjectOptions) :
    Path.Below options.moduleDir ["controllers"] options.controllerDir := below_inModule (by decide) _

theorem below_serviceDir (options : ProjectOptions) :
    Path.Below options.moduleDir ["services"] options.serviceDir := below_inModule (by decide) _

end ProjectOptions

/-! ## Controllers -/

namespace Controller

variable {holds : FileTree → Prop} {serviceDir controllerDir : Path} {names : List Path}

theorem keeps_generate {name : Path} (hwrite : ∀ file content, ServiceFile.ofPath? name = some file →
      (Change.writeFile (file.controllerPath controllerDir) content).Keeps holds) :
    (generate serviceDir controllerDir name).Keeps holds := by
  unfold generate
  split
  · exact Run.keeps_fail _
  next file hfile =>
    refine (Run.keeps_look _ _).bind fun source => Run.Keeps.bind ?_ fun methods => ?_
    · refine Run.Keeps.bind ?_ fun _ => Run.keeps_pure _
      induction (extractMethods source).signatures with
      | nil => exact Run.keeps_pure _
      | cons signature signatures ih => exact (Run.keeps_log _).bind fun _ => ih
    · refine (Run.keeps_change (hwrite file _ hfile) _).bind fun _ => ?_
      refine (Run.keeps_log _).bind fun _ => ?_
      exact (Run.keeps_tell _).bind fun _ => Run.keeps_pure _

theorem keeps_generateBatch (hwrite : ∀ name ∈ names, ∀ file content,
      ServiceFile.ofPath? name = some file →
      (Change.writeFile (file.controllerPath controllerDir) content).Keeps holds) :
    (generateBatch serviceDir controllerDir names).Keeps holds := by
  have heach : (generateEach serviceDir controllerDir names).Keeps holds := by
    induction names with
    | nil => exact Run.keeps_pure _
    | cons name names ih =>
        obtain ⟨hname, hrest⟩ := List.forall_mem_cons.mp hwrite
        exact (keeps_generate hname).bind fun _ => (ih hrest).bind fun _ => Run.keeps_pure _
  refine heach.bind fun _ => (Run.keeps_log _).bind fun _ => ?_
  exact (Run.keeps_tell _).bind fun _ => Run.keeps_pure _

end Controller

theorem ServiceFilter.keeps_discover {holds : FileTree → Prop} (filter : ServiceFilter) (dir : Path) :
    (filter.discover dir).Keeps holds := by
  refine Run.keeps_tree.bind fun tree => ?_
  split
  · exact (Run.keeps_look _ _).bind fun _ => Run.keeps_pure _
  · exact Run.keeps_pure _

/-! ## Stages -/

namespace Project

variable {options : ProjectOptions} {holds : FileTree → Prop}

theorem isSegment_moduleFile (hfault : options.fault? = none) :
    Path.IsSegment (options.service ++ ".module.ts") :=
  Path.isSegment_append (ProjectOptions.isSegment_service hfault).noSeparator (by decide) (by decide)

theorem isSegment_starterFile (hfault : options.fault? = none) :
    Path.IsSegment (options.service ++ controllerSuffix) :=
  Path.isSegment_append (ProjectOptions.isSegment_service hfault).noSeparator (by decide) (by decide)

theorem below_modulePath (hfault : options.fault? = none) :
    Path.Below options.moduleDir [options.service ++ ".module.ts"] (modulePath options) :=
  ProjectOptions.below_inModule (isSegment_moduleFile hfault) _

/-- The files that every project has are named in its directory or in that of its sources. -/
theorem exists_name_of_plannedFiles {file : PlannedFile}
    (hfile : file ∈ plannedFiles options options.root) :
    ∃ name, (Path.IsSegment name ∧ name ∉ ["dist".toList, generatedDirName]) ∧
      (file.path = Path.join options.root name ∨
        file.path = Path.join (Path.join options.root "src") name) := by
  simp only [plannedFiles, List.mem_cons, List.not_mem_nil, or_false] at hfile
  rcases hfile with rfl | rfl | rfl | rfl | rfl | rfl | rfl | rfl | rfl | rfl | rfl
  all_goals dsimp only
  iterate 9 refine ⟨_, ?_, Or.inl rfl⟩; decide
  all_goals refine ⟨_, ?_, Or.inr rfl⟩; decide

/-- The files that every project has stand in its directory or in that of its sources, and not where
something is removed from the project. -/
theorem below_plannedFiles {file : PlannedFile} (hfile : file ∈ plannedFiles options options.root) :
    ∃ name, name ∉ ["dist".toList, generatedDirName] ∧ (Path.Below options.root [name] file.path ∨
      Path.Below options.root ["src", name] file.path) := by
  obtain ⟨name, ⟨hname, hkept⟩, hpath | hpath⟩ := exists_name_of_plannedFiles hfile
  · exact ⟨name, hkept, Or.inl (hpath ▸ ProjectOptions.below_root hname _)⟩
  · exact ⟨name, hkept, Or.inr (hpath ▸ (ProjectOptions.below_root (by decide) _).join hname)⟩

/-- Is it the place of a file that every project has? -/
def Planned (tree : FileTree) (options : ProjectOptions) (place : Location) : Prop :=
  ∃ file ∈ plannedFiles options options.root, place = tree.placeOf file.path

variable {base : FileTree} {place : Location} {name : Text}

theorem not_inside_of_planned (hfault : options.fault? = none) (hplanned : Planned base options place) :
    ¬ base.placeOf options.moduleDir <+: place := by
  obtain ⟨file, hfile, rfl⟩ := hplanned
  intro hinside
  have hlength := hinside.length_le
  rw [placeOf_below (ProjectOptions.below_moduleDir hfault)] at hlength
  obtain ⟨name, -, hbelow | hbelow⟩ := below_plannedFiles hfile
  all_goals
    rw [placeOf_below hbelow] at hlength
    simp at hlength

theorem not_removed_of_planned (hplanned : Planned base options place)
    (hname : name ∈ ["dist".toList, generatedDirName]) :
    ¬ base.placeOf (Path.join options.root name) <+: place := by
  have hordinary : ∀ name ∈ ["dist".toList, generatedDirName], Path.IsSegment name ∧ name ≠ "src" := by
    decide
  obtain ⟨file, hfile, rfl⟩ := hplanned
  obtain ⟨last, hlast, hbelow | hbelow⟩ := below_plannedFiles hfile
  all_goals
    rw [placeOf_below hbelow, placeOf_join (hordinary name hname).1, List.prefix_append_right_inj,
      List.cons_prefix_cons]
    rintro ⟨rfl, -⟩
  · exact hlast hname
  · exact (hordinary _ hname).2 rfl

theorem keeps_stage_below (hkept : Change.KeptBelow options.root holds) :
    (stage options options.root).Keeps holds := by
  refine keeps_stage fun file hfile => ?_
  obtain ⟨name, -, hbelow | hbelow⟩ := below_plannedFiles hfile
  · exact hkept.writeUnlessThere hbelow (by simp) _ _
  · exact hkept.writeUnlessThere hbelow (by simp) _ _

theorem keeps_layOut_below (hfault : options.fault? = none)
    (hkept : Change.KeptBelow options.root holds) : (layOut options).Keeps holds := by
  have hmodule := ProjectOptions.below_moduleDir hfault
  exact keeps_layOut (hkept.createDir (hmodule.trans (ProjectOptions.below_controllerDir options)))
    (hkept.createDir (hmodule.trans (ProjectOptions.below_serviceDir options)))
    (keeps_stage_below hkept)

theorem keeps_writeStarter_below (hfault : options.fault? = none)
    (hkept : Change.KeptBelow options.moduleDir holds) : (writeStarter options).Keeps holds := by
  have hpath := (ProjectOptions.below_controllerDir options).join (isSegment_starterFile hfault)
  refine (hkept.writeUnlessThere hpath (by simp) _ _).bind fun written => ?_
  split
  · exact (Run.keeps_tell _).bind fun _ => Run.keeps_pure _
  · exact Run.keeps_pure _

theorem keeps_writeControllers_below {controllerDir : Path} (filter : ServiceFilter) (serviceDir : Path)
    (hkept : Change.KeptBelow controllerDir holds) :
    (writeControllers filter serviceDir controllerDir).Keeps holds := by
  refine (filter.keeps_discover serviceDir).bind fun names => ?_
  split
  · exact (Run.keeps_log _).bind fun _ => Run.keeps_pure _
  · refine (hkept.createDir (.refl controllerDir)).bind fun _ => ?_
    refine Run.Keeps.bind ?_ fun _ => Run.keeps_pure _
    refine Controller.keeps_generateBatch fun name _ file content hfile => ?_
    exact hkept.writeFile ((Path.Below.refl controllerDir).join
      (ServiceFile.isSegment_controllerFile hfile)) (by simp) content

/-- What is imported goes below the module's directory; what is removed is removed elsewhere, but for
the services' index. -/
theorem keeps_importGenerated_below (hplain : ∀ tree, holds tree → tree.Plain)
    (hkept : Change.KeptBelow options.moduleDir holds)
    (hindex : (Change.removeFile (Path.join options.serviceDir ImportedSources.indexFile)).Keeps holds)
    (hgenerated : (Change.removeDirAll (Path.join options.root generatedDirName)).Keeps holds)
    (hdist : (Change.removeDirAll (Path.join options.root "dist")).Keeps holds) :
    (importGenerated options).Keeps holds := by
  have hmodel : Path.IsSegment "model" := by decide
  have hloose : ∀ name ∈ ImportedSources.looseFiles, Path.IsSegment name := by decide
  refine keeps_importGenerated (keeps_fetch ?_ ?_ (fun name hname => ?_)
    (Run.keeps_removeFileIfThere hindex) (Run.keeps_removeDirAllIfThere hgenerated))
    (Run.keeps_removeDirAllIfThere hdist)
  · exact hkept.copyDir hplain (ProjectOptions.below_inModule hmodel options) (by simp) _
  · exact hkept.copyDir hplain (ProjectOptions.below_serviceDir options) (by simp) _
  · exact hkept.copyFileIfThere (ProjectOptions.below_inModule (hloose name hname) options)
      (by simp) _

/-- Up to the end of the generator everything is known from the world that it is started in; what is
done after that is done only if it succeeded. -/
theorem holds_writeContents {host : Host} {settings : Settings} {staged : World}
    (hfault : options.fault? = none) (hkept : Change.KeptBelow options.moduleDir holds)
    (hgenerator : ∀ document launched, options.document? = some document →
      Started host settings options document staged launched → holds launched.tree)
    (himport : ∀ document launched, options.document? = some document →
      Started host settings options document staged launched → launched.status.isSuccess = true →
      (importGenerated options).Keeps holds)
    (hstaged : holds staged.tree) :
    holds (lastState (writeContents host settings options staged)).tree := by
  rw [writeContents]
  cases hdocument : options.document? with
  | none =>
      exact (keeps_writeStarter_below hfault hkept).bind (fun _ => Run.keeps_pure _) staged hstaged
  | some document =>
      refine Run.holds_bind ?_ fun outcome after _ hafter => ?_
      · rw [Run.lastState_attempt, generateFromDocument_eq, importServices_eq, bind_assoc]
        rcases runGenerator_cases host settings options document staged with
          ⟨failure, after, hrun, hafter⟩ | ⟨launched, after, hstarted, hafter, hrun⟩
        · rw [Run.bind_of_error hrun]
          exact hafter ▸ hstaged
        · have hgenerated : holds after.tree := hafter ▸ hgenerator _ _ hdocument hstarted
          cases hsuccess : launched.status.isSuccess with
          | true =>
              rw [hsuccess, if_pos rfl] at hrun
              rw [Run.bind_of_ok hrun]
              refine (himport _ _ hdocument hstarted hsuccess).bind (fun imported => ?_) after
                hgenerated
              exact keeps_writeControllers_below _ _
                (hkept.down (ProjectOptions.below_controllerDir options))
          | false =>
              rw [hsuccess, if_neg Bool.false_ne_true] at hrun
              rw [Run.bind_of_error hrun]
              exact hgenerated
      · split
        · exact (Run.keeps_tell _).bind (fun _ => Run.keeps_pure _) after hafter
        · refine (Run.keeps_log _).bind (fun _ => ?_) after hafter
          exact (Run.keeps_tell _).bind fun _ => Run.keeps_pure _

theorem keeps_finish_below (hfault : options.fault? = none)
    (hkept : Change.KeptBelow options.moduleDir holds)
    (hmodel : (Change.removeDir (Path.join options.moduleDir "model")).Keeps holds)
    (hservices : (Change.removeDir options.serviceDir).Keeps holds) (contents : ModuleContents) :
    (finish options contents).Keeps holds :=
  keeps_finish (fun content => hkept.writeUnlessThere (below_modulePath hfault) (by simp) content _)
    (Run.keeps_removeDirIfEmpty hmodel) (Run.keeps_removeDirIfEmpty hservices) contents

/-- Once a project is prepared the directory of its controllers is reached through directories. -/
theorem passable_of_prepare {world staged : World} (hplain : world.tree.Plain)
    (hok : prepare options world = .ok () staged) :
    staged.tree.Plain ∧
      staged.tree.Passable (staged.tree.startOf options.controllerDir) options.controllerDir.steps := by
  have hfault := fault?_of_prepare_ok hok
  rw [prepare, hfault] at hok
  obtain ⟨⟨⟩, first, hcontrollers, hrest⟩ := Run.bind_eq_ok_iff.mp hok
  have hname : Path.IsSegment "controllers" := by decide
  have hfirst := Run.createDir_ok hplain hcontrollers
  have hreached := Change.passable_of_makeDirAll_join hplain hname (Run.tree_of_change_ok hcontrollers)
  have hkept := Change.keptBelow_sparesDirs options.root first.tree
  have hlater : Confined .sparesDirs first.tree staged.tree := by
    have hmodule := ProjectOptions.below_moduleDir hfault
    refine Run.Keeps.of_ok (Run.Keeps.bind ?_ fun _ => Run.Keeps.bind ?_ fun _ => Run.keeps_log _)
      hrest (.refl hfirst.1)
    · exact hkept.createDir (hmodule.trans (ProjectOptions.below_serviceDir options))
    · exact keeps_stage_below hkept
  exact ⟨hlater.plain, hlater.passable hreached⟩

/-- What every change keeps is kept by every stage, and by a whole project. -/
theorem keeps_writeContents {host : Host} (hkept : Change.Kept holds) (hhost : host.Keeps holds)
    (hfault : options.fault? = none) (settings : Settings) :
    (writeContents host settings options).Keeps holds := fun _ hworld =>
  holds_writeContents hfault hkept.below
    (fun _ _ _ hstarted => hhost _ _ _ _ hstarted.launch hworld)
    (fun _ _ _ _ _ => keeps_importGenerated (hkept.fetch _ _)
      (Run.keeps_removeDirAllIfThere (hkept.removeDirAll _))) hworld

theorem keeps_scaffold {host : Host} (hkept : Change.Kept holds) (hhost : host.Keeps holds)
    (settings : Settings) (options : ProjectOptions) :
    (scaffold host settings options).Keeps holds := by
  intro world hworld
  rw [scaffold_eq]
  refine Run.holds_bind (keeps_prepare hkept options world hworld) ?_
  rintro ⟨⟩ staged hprepare hstaged
  have hcontents := keeps_writeContents hkept hhost (fault?_of_prepare_ok hprepare) settings
  refine hcontents.bind (fun written => ?_) staged hstaged
  exact (hkept.finish options written.1).bind fun _ => Run.keeps_pure _

end Project

end ServiceScaffold
