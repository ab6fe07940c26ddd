import ServiceScaffold.Proofs.Controller.Batch
import ServiceScaffold.Proofs.Run.Keeps

/-! # Where the controllers of a batch go

Whatever path a service is given by, its controller has an ordinary name, and all its names are those
of the path's last name alone. So a batch, however it ends, changes nothing but files directly inside
the directory of the controllers.
-/

namespace ServiceScaffold

namespace ServiceFile

variable {path : Path} {file : ServiceFile}

/-- The last name of a service's path is that of the same service. -/
theorem ofPath?_last (hfile : ofPath? path = some file) :
    Path.fileName? path = some (file.logicalName ++ sourceSuffix) ∧
      ofPath? (file.logicalName ++ sourceSuffix) =
        some ⟨file.logicalName ++ sourceSuffix, file.logicalName⟩ := by
  obtain ⟨-, hlast, hne⟩ := ofPath?_eq_some_iff.mp hfile
  have hsegment := (Path.fileName?_eq_some hlast).1
  exact ⟨hlast, ofPath?_eq_some_iff.mpr ⟨rfl, hsegment.fileName?_eq, hne⟩⟩

end ServiceFile

theorem Run.lastState_bind_pure {α β : Type} (run : Run α) (give : α → β) (world : World) :
    lastState ((run >>= fun value => pure (give value)) world) = lastState (run world) := by
  cases hrun : run world with
  | ok value after => rw [Run.bind_of_ok hrun]; rfl
  | error failure after => rw [Run.bind_of_error hrun]; rfl

namespace Controller

open FileTree

variable {serviceDir controllerDir : Path} {names : List Path} {world : World}
variable {tree last : FileTree} {steps : List (ServiceFile × Text)}

/-- As much of a batch as comes about: one controller after another is generated, each in the tree that
those before it left, up to the end of the names or to one that fails. -/
inductive BatchRuns (serviceDir controllerDir : Path) :
    FileTree → FileTree → List Path → List (ServiceFile × Text) → Prop
  | done (tree : FileTree) : BatchRuns serviceDir controllerDir tree tree [] []
  | stop {name : Path} (names : List Path) {world after : World} {failure : Failure}
      (hfail : generate serviceDir controllerDir name world = .error failure after) {tree : FileTree}
      (htree : world.tree = tree) : BatchRuns serviceDir controllerDir tree tree (name :: names) []
  | step {tree next last : FileTree} {name : Path} {names : List Path} {file : ServiceFile}
      {source : Text} {steps : List (ServiceFile × Text)}
      (hstep : Generates serviceDir controllerDir tree next name file source)
      (hrest : BatchRuns serviceDir controllerDir next last names steps) :
      BatchRuns serviceDir controllerDir tree last (name :: names) ((file, source) :: steps)

theorem BatchRuns.generatesEach (hruns : BatchRuns serviceDir controllerDir tree last names steps) :
    GeneratesEach serviceDir controllerDir tree last (names.take steps.length) steps := by
  induction hruns with
  | done tree => exact .nil tree
  | stop => exact .nil _
  | step hstep _ ih => exact .cons hstep ih

/-- What a batch comes to is determined by the tree that it starts with. -/
theorem BatchRuns.unique {other : FileTree} {others : List (ServiceFile × Text)}
    (hruns : BatchRuns serviceDir controllerDir tree last names steps)
    (hother : BatchRuns serviceDir controllerDir tree other names others) :
    last = other ∧ steps = others := by
  induction hruns generalizing other others with
  | done tree =>
      cases hother
      exact ⟨rfl, rfl⟩
  | stop names hfail htree =>
      subst htree
      cases hother with
      | stop => exact ⟨rfl, rfl⟩
      | step hstep => cases hstep.generate_eq.symm.trans hfail
  | step hstep hrest ih =>
      cases hother with
      | stop _ hfail htree =>
          subst htree
          cases hstep.generate_eq.symm.trans hfail
      | step hagain hothers =>
          obtain rfl := Option.some.inj (hstep.parsed.symm.trans hagain.parsed)
          obtain rfl := Except.ok.inj (hstep.read.symm.trans hagain.read)
          cases hstep.written.symm.trans hagain.written
          obtain ⟨rfl, rfl⟩ := ih hothers
          exact ⟨rfl, rfl⟩

/-- However a list of names ends, this is all that it has done to the tree; if it succeeds it gives the
controllers' paths. -/
theorem exists_runs_of_generateEach (serviceDir controllerDir : Path) (names : List Path)
    (world : World) :
    ∃ steps, BatchRuns serviceDir controllerDir world.tree
        (lastState (generateEach serviceDir controllerDir names world)).tree names steps ∧
      ∀ targets after, generateEach serviceDir controllerDir names world = .ok targets after →
        targets = steps.map fun step => step.1.controllerPath controllerDir := by
  induction names generalizing world with
  | nil =>
      refine ⟨[], .done _, fun targets after hok => ?_⟩
      obtain ⟨rfl, -⟩ := Run.pure_eq_ok_iff.mp hok
      rfl
  | cons name names ih =>
      rcases generates_or_error serviceDir controllerDir name world with
        ⟨file, source, next, hstep⟩ | ⟨failure, after, hfail, hsame, -⟩
      · have hgenerate := hstep.generate_eq
        obtain ⟨steps, hruns, htargets⟩ := ih ⟨next, _, _⟩
        refine ⟨(file, source) :: steps, ?_, fun targets after hok => ?_⟩
        · refine .step hstep ?_
          rw [generateEach, Run.bind_of_ok hgenerate, Run.lastState_bind_pure]
          exact hruns
        · rw [generateEach, Run.bind_of_ok hgenerate] at hok
          obtain ⟨others, later, hothers, hok⟩ := Run.bind_eq_ok_iff.mp hok
          obtain ⟨rfl, -⟩ := Run.pure_eq_ok_iff.mp hok
          rw [htargets others later hothers]
          rfl
      · refine ⟨[], ?_, fun targets after hok => ?_⟩
        · rw [generateEach, Run.bind_of_error hfail]
          exact hsame ▸ .stop names hfail hsame.symm
        · rw [generateEach, Run.bind_of_error hfail] at hok
          cases hok

/-- However a batch ends, this is all that it has done to the tree; if it succeeds it gives the
controllers' paths. -/
theorem exists_batchRuns (serviceDir controllerDir : Path) (names : List Path) (world : World) :
    ∃ steps, BatchRuns serviceDir controllerDir world.tree
        (lastState (generateBatch serviceDir controllerDir names world)).tree names steps ∧
      ∀ targets after, generateBatch serviceDir controllerDir names world = .ok targets after →
        targets = steps.map fun step => step.1.controllerPath controllerDir := by
  obtain ⟨steps, hruns, htargets⟩ := exists_runs_of_generateEach serviceDir controllerDir names world
  cases heach : generateEach serviceDir controllerDir names world with
  | ok targets middle =>
      rw [heach] at hruns
      rw [generateBatch_of_ok heach]
      refine ⟨steps, hruns, fun others after hok => ?_⟩
      cases hok
      exact htargets targets middle heach
  | error failure after =>
      rw [heach] at hruns
      rw [generateBatch_of_error heach]
      exact ⟨steps, hruns, fun _ _ hok => nomatch hok⟩

/-- One tree is the other one but for files directly inside a directory, each of which is the
controller of one of the services; and there is one at the place of every service's. -/
structure AddsControllers (controllerDir : Path) (tree last : FileTree)
    (steps : List (ServiceFile × Text)) : Prop where
  linkFree : last.LinkFree
  workingDir : last.workingDir = tree.workingDir
  entries : ∀ place, last.entry? place = tree.entry? place ∨
    ∃ step ∈ steps, place = tree.placeOf controllerDir ++ [step.1.controllerFile] ∧
      tree.entry? place ≠ some .dir ∧
      last.entry? place = some (.file (.text (ofSource step.1 step.2).render))
  written : ∀ step ∈ steps, ∃ other ∈ steps, other.1.controllerFile = step.1.controllerFile ∧
    last.entry? (tree.placeOf controllerDir ++ [step.1.controllerFile]) =
      some (.file (.text (ofSource other.1 other.2).render))

theorem AddsControllers.cons {next : FileTree} {name : Path} {file : ServiceFile} {source : Text}
    (hfree : tree.LinkFree) (hstep : Generates serviceDir controllerDir tree next name file source)
    (hrest : next.LinkFree → AddsControllers controllerDir next last steps) :
    AddsControllers controllerDir tree last ((file, source) :: steps) := by
  have hsegment := ServiceFile.isSegment_controllerFile hstep.parsed
  have hroot := placeOf_ne_nil_of_writeFile hfree hstep.written
  obtain ⟨-, hnoDir, rfl⟩ := (writeFile_eq_ok_iff hfree).mp hstep.written
  rw [ServiceFile.controllerPath, placeOf_join hsegment] at hroot hnoDir hrest
  obtain ⟨hlastFree, hworking, hentries, hwritten⟩ := hrest (hfree.put (by simp))
  have hput (place : Location) : entry? (tree.put _ (.file (.text (ofSource file source).render))) place =
      if place = _ then some _ else tree.entry? place := entry?_put hroot place
  refine ⟨hlastFree, hworking, fun place => ?_, List.forall_mem_cons.mpr ⟨?_, fun step hstep => ?_⟩⟩
  · rcases hentries place with hsame | ⟨step, hmem, hplace, hfile, hnew⟩
    · rw [hsame, hput]
      split
      next heq => exact Or.inr ⟨(file, source), List.mem_cons_self, heq, heq ▸ hnoDir, rfl⟩
      next => exact Or.inl rfl
    · refine Or.inr ⟨step, List.mem_cons_of_mem _ hmem, hplace, ?_, hnew⟩
      rw [hput] at hfile
      split at hfile
      next heq => exact heq ▸ hnoDir
      next => exact hfile
  · -- the first controller stays, or a later one of the same name is written over it
    rcases hentries (tree.placeOf controllerDir ++ [file.controllerFile]) with
      hsame | ⟨step, hmem, hplace, -, hnew⟩
    · rw [hput, if_pos rfl] at hsame
      exact ⟨(file, source), List.mem_cons_self, rfl, hsame⟩
    · have hname := List.singleton_inj.mp (List.append_cancel_left hplace)
      exact ⟨step, List.mem_cons_of_mem _ hmem, hname.symm, hnew⟩
  · obtain ⟨other, hother, hname, hnew⟩ := hwritten step hstep
    exact ⟨other, List.mem_cons_of_mem _ hother, hname, hnew⟩

theorem GeneratesEach.addsControllers (hfree : tree.LinkFree)
    (hsteps : GeneratesEach serviceDir controllerDir tree last names steps) :
    AddsControllers controllerDir tree last steps := by
  induction hsteps with
  | nil => exact ⟨hfree, rfl, fun _ => Or.inl rfl, fun _ hstep => absurd hstep List.not_mem_nil⟩
  | cons hstep _ ih => exact .cons hfree hstep ih

theorem GeneratesEach.ofPath?_of_mem
    (hsteps : GeneratesEach serviceDir controllerDir tree last names steps)
    {step : ServiceFile × Text} (hstep : step ∈ steps) :
    ∃ name ∈ names, ServiceFile.ofPath? name = some step.1 := by
  have hmem : step.1 ∈ names.filterMap ServiceFile.ofPath? :=
    hsteps.filterMap_ofPath? ▸ List.mem_map_of_mem hstep
  exact List.mem_filterMap.mp hmem

/-- What a batch of names may do to a tree: it puts controllers directly inside their directory, where
nothing or a file stood. -/
structure StaysInDirectory (controllerDir : Path) (names : List Path) (before after : FileTree) :
    Prop where
  workingDir : after.workingDir = before.workingDir
  entries : ∀ place, after.entry? place = before.entry? place ∨
    ∃ name ∈ names, ∃ file, ServiceFile.ofPath? name = some file ∧
      place = before.placeOf controllerDir ++ [file.controllerFile] ∧
      before.entry? place ≠ some .dir ∧
      ∃ source, after.entry? place = some (.file (.text (ofSource file source).render))

/-- Every path that is a service's has a last name, from which alone all names around the service come;
its controller is one ordinary name with the ending of controllers. So in a tree without symbolic links
a batch, however it ends, changes files directly inside the directory of the controllers, and nothing
else. -/
theorem generateBatch_stays_in_directory (serviceDir controllerDir : Path) (names : List Path)
    (world : World) :
    (∀ path file, ServiceFile.ofPath? path = some file →
      Path.IsSegment file.controllerFile ∧ controllerSuffix <:+ file.controllerFile ∧
      ∃ before last idle alone,
        Path.segments path = before ++ last :: idle ∧ (∀ part ∈ idle, Path.isIdle part = true) ∧
        Path.IsSegment last ∧ last = file.logicalName ++ sourceSuffix ∧
        ServiceFile.ofPath? last = some alone ∧
        alone.logicalName = file.logicalName ∧ alone.baseName = file.baseName ∧
        alone.serviceType = file.serviceType ∧ alone.controllerType = file.controllerType ∧
        alone.controllerFile = file.controllerFile) ∧
    (world.tree.LinkFree → StaysInDirectory controllerDir names world.tree
      (lastState (generateBatch serviceDir controllerDir names world)).tree) := by
  refine ⟨fun path file hfile => ?_, fun hfree => ?_⟩
  · obtain ⟨hlast, halone⟩ := ServiceFile.ofPath?_last hfile
    obtain ⟨hsegment, before, idle, hsegments, hidle⟩ := Path.fileName?_eq_some hlast
    refine ⟨ServiceFile.isSegment_controllerFile hfile, List.suffix_append _ _, ?_⟩
    exact ⟨before, _, idle, _, hsegments, hidle, hsegment, rfl, halone, rfl, rfl, rfl, rfl, rfl⟩
  · obtain ⟨steps, hruns, -⟩ := exists_batchRuns serviceDir controllerDir names world
    have hsteps := hruns.generatesEach
    obtain ⟨-, hworking, hentries, -⟩ := hsteps.addsControllers hfree
    refine ⟨hworking, fun place => (hentries place).imp_right ?_⟩
    rintro ⟨step, hstep, hplace, hnoDir, hnew⟩
    obtain ⟨name, hname, hfile⟩ := hsteps.ofPath?_of_mem hstep
    exact ⟨name, List.mem_of_mem_take hname, step.1, hfile, hplace, hnoDir, step.2, hnew⟩

/-- A tree with one service, and a directory on a way to it that goes down and up again. -/
def nestedService : FileTree :=
  ⟨[], [(["c"], .dir), (["s"], .dir), (["s", "in"], .dir),
    (["s", "a.service.ts"], .file (.text "public find()"))]⟩

theorem generateBatch_stays_in_directory_nestedService :
    ServiceFile.ofPath? "in/../a.service.ts/." =
        some ⟨"in/../a.service.ts/.", "a.service"⟩ ∧
      Path.IsSegment (ServiceFile.controllerFile ⟨"in/../a.service.ts/.", "a.service"⟩) ∧
      nestedService.LinkFree ∧
      (lastState (generateBatch "s" "c" ["in/../a.service.ts"] (.ofTree nestedService))).tree.entry?
        ["s", "a.service.ts"] = some (.file (.text "public find()")) := by
  have hfile : ServiceFile.ofPath? "in/../a.service.ts/." =
      some ⟨"in/../a.service.ts/.", "a.service"⟩ := by decide +kernel
  have hfree : (World.ofTree nestedService).tree.LinkFree := by decide +kernel
  obtain ⟨hnames, hbatch⟩ :=
    generateBatch_stays_in_directory "s" "c" ["in/../a.service.ts"] (.ofTree nestedService)
  refine ⟨hfile, (hnames _ _ hfile).1, hfree, ?_⟩
  refine ((hbatch hfree).entries ["s", "a.service.ts"]).resolve_right ?_
  rintro ⟨name, hname, file, -, hplace, -⟩
  have hdir : (World.ofTree nestedService).tree.placeOf "c" = ["c"] := by decide +kernel
  rw [hdir] at hplace
  have hfirst := (List.cons.inj hplace).1
  revert hfirst
  decide

end Controller

end ServiceScaffold
