import Mathlib.Data.List.Perm.Basic
import ServiceScaffold.Proofs.Controller.Batch

/-! # What a batch does to the tree

In a tree without symbolic links, and as long as no controller is written over a service of the same
batch, each service is read as it was before the batch. So a batch that succeeds is a list of writes
that are known before it starts: the last one to a file decides what the file holds, and the same
batch once more writes what is there already.
-/

namespace ServiceScaffold.Controller

open FileTree

variable {serviceDir controllerDir : Path} {tree current next last : FileTree}
variable {name : Path} {names : List Path} {files : List ServiceFile} {file : ServiceFile}
variable {source : Text} {steps : List (ServiceFile × Text)} {step : ServiceFile × Text}

/-- No controller of the batch stands where one of its services does. -/
def Apart (serviceDir controllerDir : Path) (tree : FileTree) (files : List ServiceFile) : Prop :=
  ∀ file ∈ files, ∀ other ∈ files,
    tree.placeOf (file.controllerPath controllerDir) ≠ tree.placeOf (other.sourcePath serviceDir)

/-- Controllers and services of different directories do not stand in one place. -/
theorem apart_of_ne (hdirs : tree.placeOf serviceDir ≠ tree.placeOf controllerDir)
    (hfiles : ∀ file ∈ files, Path.IsSegment file.fileName ∧ Path.IsSegment file.controllerFile) :
    Apart serviceDir controllerDir tree files := by
  intro file hfile other hother hplace
  rw [ServiceFile.controllerPath, ServiceFile.sourcePath, placeOf_join (hfiles file hfile).2,
    placeOf_join (hfiles other hother).1] at hplace
  exact hdirs (List.append_inj_left' hplace rfl).symm

/-- The service's source in the first tree is what its controller in the second was made from. -/
def HasController (serviceDir controllerDir : Path) (before after : FileTree)
    (file : ServiceFile) : Prop :=
  ∃ source, before.read (file.sourcePath serviceDir) = .ok source ∧
    after.read (file.controllerPath controllerDir) = .ok (ofSource file source).render

instance (serviceDir controllerDir : Path) (before after : FileTree) (file : ServiceFile) :
    Decidable (HasController serviceDir controllerDir before after file) :=
  match hread : before.read (file.sourcePath serviceDir) with
  | .ok source =>
    decidable_of_iff (after.read (file.controllerPath controllerDir) =
      .ok (ofSource file source).render) (by simp [HasController, hread])
  | .error _ => isFalse (by simp [HasController, hread])

/-- What a batch does to a tree: nothing but the controllers changes, and of the services that have
one controller file the last one decides what it holds. -/
structure Effect (serviceDir controllerDir : Path) (before after : FileTree)
    (files : List ServiceFile) : Prop where
  workingDir : after.workingDir = before.workingDir
  frame : ∀ place ∉ files.map fun file => before.placeOf (file.controllerPath controllerDir),
    after.entry? place = before.entry? place
  last : ∀ earlier file later, files = earlier ++ file :: later →
    (∀ other ∈ later, other.controllerFile ≠ file.controllerFile) →
      HasController serviceDir controllerDir before after file

/-! ## One controller as a write -/

/-- The place and the text of a controller. -/
def writeOf (controllerDir : Path) (tree : FileTree) (step : ServiceFile × Text) :
    Location × Content :=
  (tree.placeOf (step.1.controllerPath controllerDir), .text (ofSource step.1 step.2).render)

/-- The controller of the name can be generated in this tree. -/
structure Ready (serviceDir controllerDir : Path) (tree : FileTree) (name : Path)
    (step : ServiceFile × Text) : Prop where
  parsed : ServiceFile.ofPath? name = some step.1
  read : tree.read (step.1.sourcePath serviceDir) = .ok step.2
  reached : ∃ spot, tree.locate .creation (step.1.controllerPath controllerDir) = .ok spot
  noDir : tree.entry? (writeOf controllerDir tree step).1 ≠ some .dir

/-- A tree in the middle of a batch: it has the directories that the batch started with, and the
services are as they were. -/
structure Amid (serviceDir : Path) (files : List ServiceFile) (tree current : FileTree) : Prop where
  linkFree : current.LinkFree
  sameDirs : SameDirs tree current
  sources : ∀ file ∈ files, current.entry? (tree.placeOf (file.sourcePath serviceDir)) =
    tree.entry? (tree.placeOf (file.sourcePath serviceDir))

theorem Ready.ne_nil (hready : Ready serviceDir controllerDir tree name step) :
    (writeOf controllerDir tree step).1 ≠ [] := by
  intro hroot
  exact hready.noDir (hroot ▸ entry?_root tree)

/-- In the middle of a batch a controller can be generated exactly if it could be at the start, and
it is made from the source that was there. -/
theorem Amid.generates_iff (hamid : Amid serviceDir files tree current) (hfree : tree.LinkFree)
    (hfile : file ∈ files) :
    Generates serviceDir controllerDir current next name file source ↔
      Ready serviceDir controllerDir tree name (file, source) ∧
        next = current.put (writeOf controllerDir tree (file, source)).1
          (.file (writeOf controllerDir tree (file, source)).2) := by
  have hread : current.read (file.sourcePath serviceDir) = .ok source ↔
      tree.read (file.sourcePath serviceDir) = .ok source :=
    read_congr hfree hamid.linkFree hamid.sameDirs (hamid.sources file hfile)
  have hplace := hamid.sameDirs.placeOf_eq (file.controllerPath controllerDir)
  have hdir := not_congr (hamid.sameDirs.dirs (tree.placeOf (file.controllerPath controllerDir)))
  have hreach (hparsed : ServiceFile.ofPath? name = some file) :
      (∃ spot, current.locate .creation (file.controllerPath controllerDir) = .ok spot) ↔
        ∃ spot, tree.locate .creation (file.controllerPath controllerDir) = .ok spot :=
    hamid.sameDirs.reach_join_iff (ServiceFile.isSegment_controllerFile hparsed) hfree hamid.linkFree
  constructor
  · rintro ⟨hparsed, hsource, hwritten⟩
    rw [writeFile_eq_ok_iff hamid.linkFree, hplace] at hwritten
    obtain ⟨hreached, hnoDir, hnext⟩ := hwritten
    exact ⟨⟨hparsed, hread.mp hsource, (hreach hparsed).mp hreached, hdir.mp hnoDir⟩, hnext⟩
  · rintro ⟨⟨hparsed, hsource, hreached, hnoDir⟩, hnext⟩
    refine ⟨hparsed, hread.mpr hsource, ?_⟩
    rw [writeFile_eq_ok_iff hamid.linkFree, hplace]
    exact ⟨(hreach hparsed).mpr hreached, hdir.mpr hnoDir, hnext⟩

theorem Amid.put (hamid : Amid serviceDir files tree current)
    (hapart : Apart serviceDir controllerDir tree files) (hfile : file ∈ files)
    (hready : Ready serviceDir controllerDir tree name (file, source)) :
    Amid serviceDir files tree (current.put (writeOf controllerDir tree (file, source)).1
      (.file (writeOf controllerDir tree (file, source)).2)) where
  linkFree := hamid.linkFree.put (by simp)
  sameDirs := by
    refine ⟨hamid.sameDirs.workingDir, fun place => ?_⟩
    rw [entry?_put hready.ne_nil]
    split
    -- where the file goes there is a directory neither before nor after
    next hplace => exact iff_of_false (by simp) (hplace ▸ hready.noDir)
    next => exact hamid.sameDirs.dirs place
  sources := by
    intro other hother
    have hne : tree.placeOf (other.sourcePath serviceDir) ≠
        (writeOf controllerDir tree (file, source)).1 := (hapart file hfile other hother).symm
    rw [entry?_put hready.ne_nil, if_neg hne]
    exact hamid.sources other hother

/-! ## A list of controllers as writes -/

/-- In the middle of a batch, names can be handled one after another exactly if each of them could be
at the start; the tree is then the one with all of the writes. -/
theorem Amid.generatesEach_iff (hamid : Amid serviceDir files tree current)
    (hfree : tree.LinkFree) (hapart : Apart serviceDir controllerDir tree files)
    (hnames : ∀ name ∈ names, ∀ file, ServiceFile.ofPath? name = some file → file ∈ files) :
    GeneratesEach serviceDir controllerDir current last names steps ↔
      List.Forall₂ (Ready serviceDir controllerDir tree) names steps ∧
        last = current.putAll (steps.map (writeOf controllerDir tree)) := by
  -- each write leaves the tree in the middle of the batch, so the next name finds what it needs
  induction names generalizing current steps with
  | nil =>
      constructor
      · rintro ⟨⟩
        exact ⟨.nil, rfl⟩
      · rintro ⟨⟨⟩, rfl⟩
        exact .nil _
  | cons name names ih =>
      obtain ⟨hname, hrest⟩ := List.forall_mem_cons.mp hnames
      constructor
      · rintro (_ | ⟨hstep, hsteps⟩)
        have hfile := hname _ hstep.parsed
        obtain ⟨hready, rfl⟩ := (hamid.generates_iff hfree hfile).mp hstep
        obtain ⟨hall, hlast⟩ := (ih (hamid.put hapart hfile hready) hrest).mp hsteps
        exact ⟨.cons hready hall, hlast⟩
      · rintro ⟨_ | ⟨hready, hall⟩, hlast⟩
        have hfile := hname _ hready.parsed
        refine .cons ((hamid.generates_iff hfree hfile).mpr ⟨hready, rfl⟩) ?_
        exact (ih (hamid.put hapart hfile hready) hrest).mpr ⟨hall, hlast⟩

theorem Amid.putAll (hamid : Amid serviceDir files tree current)
    (hapart : Apart serviceDir controllerDir tree files)
    (hnames : ∀ name ∈ names, ∀ file, ServiceFile.ofPath? name = some file → file ∈ files)
    (hall : List.Forall₂ (Ready serviceDir controllerDir tree) names steps) :
    Amid serviceDir files tree (current.putAll (steps.map (writeOf controllerDir tree))) := by
  induction hall generalizing current with
  | nil => exact hamid
  | cons hready hall ih =>
      obtain ⟨hname, hrest⟩ := List.forall_mem_cons.mp hnames
      exact ih (hamid.put hapart (hname _ hready.parsed) hready) hrest

theorem Amid.refl (hfree : tree.LinkFree) (serviceDir : Path) (files : List ServiceFile) :
    Amid serviceDir files tree tree := ⟨hfree, ⟨rfl, fun _ => Iff.rfl⟩, fun _ _ => rfl⟩

theorem writeOf_inj {first second : ServiceFile × Text} {name other : Path}
    (hfirst : Ready serviceDir controllerDir tree name first)
    (hsecond : Ready serviceDir controllerDir tree other second) :
    (writeOf controllerDir tree first).1 = (writeOf controllerDir tree second).1 ↔
      first.1.controllerFile = second.1.controllerFile := by
  simp [writeOf, ServiceFile.controllerPath,
    placeOf_join (ServiceFile.isSegment_controllerFile hfirst.parsed),
    placeOf_join (ServiceFile.isSegment_controllerFile hsecond.parsed)]

theorem exists_ready (hall : List.Forall₂ (Ready serviceDir controllerDir tree) names steps)
    (hstep : step ∈ steps) : ∃ name, Ready serviceDir controllerDir tree name step := by
  induction hall with
  | nil => cases hstep
  | cons hready hall ih =>
      rcases List.mem_cons.mp hstep with rfl | hstep
      · exact ⟨_, hready⟩
      · exact ih hstep

theorem ne_nil_of_ready (hall : List.Forall₂ (Ready serviceDir controllerDir tree) names steps) :
    ∀ write ∈ steps.map (writeOf controllerDir tree), write.1 ≠ [] := by
  rintro write hwrite
  obtain ⟨step, hstep, rfl⟩ := List.mem_map.mp hwrite
  obtain ⟨name, hready⟩ := exists_ready hall hstep
  exact hready.ne_nil

/-- The writes of services with different base names go to different places. -/
theorem nodup_places (hall : List.Forall₂ (Ready serviceDir controllerDir tree) names steps)
    (hbases : (steps.map fun step => step.1.baseName).Nodup) :
    ((steps.map (writeOf controllerDir tree)).map Prod.fst).Nodup := by
  rw [List.map_map]
  refine hbases.of_map.map_on fun first hfirst second hsecond hplace => ?_
  obtain ⟨name, hready⟩ := exists_ready hall hfirst
  obtain ⟨other, hother⟩ := exists_ready hall hsecond
  have hname := ServiceFile.controllerFile_inj.mp ((writeOf_inj hready hother).mp hplace)
  exact List.inj_on_of_nodup_map hbases hfirst hsecond hname

theorem effect_of_ready (hfree : tree.LinkFree)
    (hall : List.Forall₂ (Ready serviceDir controllerDir tree) names steps)
    (hamid : Amid serviceDir files tree (tree.putAll (steps.map (writeOf controllerDir tree)))) :
    Effect serviceDir controllerDir tree (tree.putAll (steps.map (writeOf controllerDir tree)))
      (steps.map Prod.fst) where
  workingDir := putAll_workingDir tree _
  frame := by
    intro place hplace
    refine entry?_putAll_of_notMem (ne_nil_of_ready hall) ?_
    rwa [List.map_map] at hplace ⊢
  last := by
    intro earlier file later hfiles hlast
    obtain ⟨before, rest, rfl, -, hrest⟩ := List.map_eq_append_iff.mp hfiles
    obtain ⟨step, after, rfl, rfl, rfl⟩ := List.map_eq_cons_iff.mp hrest
    obtain ⟨name, hready⟩ := exists_ready hall (List.mem_append_right _ List.mem_cons_self)
    have hsegment := ServiceFile.isSegment_controllerFile hready.parsed
    refine ⟨step.2, hready.read, ?_⟩
    -- no later write goes to the place of this one
    have hlater : (writeOf controllerDir tree step).1 ∉
        (after.map (writeOf controllerDir tree)).map Prod.fst := by
      rw [List.map_map]
      intro hmem
      obtain ⟨other, hother, hplace⟩ := List.mem_map.mp hmem
      obtain ⟨name, hready'⟩ := exists_ready hall
        (List.mem_append_right before (List.mem_cons_of_mem step hother))
      exact hlast _ (List.mem_map_of_mem hother) ((writeOf_inj hready' hready).mp hplace)
    have hentry : entry? (tree.putAll ((before ++ step :: after).map (writeOf controllerDir tree)))
        (writeOf controllerDir tree step).1 = some (.file (writeOf controllerDir tree step).2) := by
      have hroot := ne_nil_of_ready hall
      rw [List.map_append, List.map_cons] at hroot ⊢
      exact entry?_putAll_of_last hroot hlater
    refine read_join_of_entry? hsegment hamid.linkFree
      ((hamid.sameDirs.reach_join_iff hsegment hfree hamid.linkFree).mpr hready.reached) ?_
    exact (congrArg _ (hamid.sameDirs.placeOf_eq _)).trans hentry

theorem map_ofPath?_of_ready (hall : List.Forall₂ (Ready serviceDir controllerDir tree) names steps) :
    names.map ServiceFile.ofPath? = (steps.map Prod.fst).map some := by
  induction hall with
  | nil => rfl
  | cons hready _ ih => rw [List.map_cons, hready.parsed, ih, List.map_cons, List.map_cons]

/-- Every service has a controller file, made from the last service that has the same one. -/
theorem Effect.exists_hasController {before after : FileTree}
    (heffect : Effect serviceDir controllerDir before after files) (hfile : file ∈ files) :
    ∃ earlier other later, files = earlier ++ other :: later ∧
      other.controllerFile = file.controllerFile ∧
      (∀ third ∈ later, third.controllerFile ≠ file.controllerFile) ∧
      HasController serviceDir controllerDir before after other := by
  have hsome : ∃ other ∈ files, other.controllerFile = file.controllerFile := ⟨file, hfile, rfl⟩
  obtain ⟨earlier, other, later, rfl, hother, hlater⟩ := exists_last hsome
  exact ⟨earlier, other, later, rfl, hother, hlater,
    heffect.last earlier other later rfl (hother ▸ hlater)⟩

/-- With different base names no service shares its controller with another one. -/
theorem Effect.hasController {before after : FileTree}
    (heffect : Effect serviceDir controllerDir before after files)
    (hbases : (files.map ServiceFile.baseName).Nodup) (hfile : file ∈ files) :
    HasController serviceDir controllerDir before after file := by
  obtain ⟨earlier, other, later, hfiles, hsame, -, hother⟩ := heffect.exists_hasController hfile
  have hmem : other ∈ files := by simp [hfiles]
  rwa [List.inj_on_of_nodup_map hbases hmem hfile (ServiceFile.controllerFile_inj.mp hsame)] at hother

/-! ## Batches -/

variable {world after : World} {targets : List Path}

/-- What a batch prints. -/
def told (names : List Path) (steps : List (ServiceFile × Text)) : List Output :=
  (steps.map fun step => notice step.1) ++ [summary names.length]

theorem GeneratesEach.generateBatch_eq
    (hsteps : GeneratesEach serviceDir controllerDir world.tree last names steps) :
    ∃ logged, generateBatch serviceDir controllerDir names world =
      .ok (steps.map fun step => step.1.controllerPath controllerDir)
        ⟨last, world.printed ++ told names steps, logged⟩ := by
  obtain ⟨logged, heach⟩ := hsteps.generateEach_eq world rfl
  rw [generateBatch_of_ok heach, told, ← List.append_assoc]
  exact ⟨_, rfl⟩

theorem generatesEach_of_batch
    (hok : generateBatch serviceDir controllerDir names world = .ok targets after) :
    ∃ steps, GeneratesEach serviceDir controllerDir world.tree after.tree names steps := by
  obtain ⟨middle, heach, rfl⟩ := generateBatch_eq_ok_iff.mp hok
  obtain ⟨steps, hsteps⟩ := generatesEach_of_ok heach
  exact ⟨steps, hsteps⟩

/-- A batch of names that could be handled at the start of another one can still be done. -/
theorem Amid.generateBatch_eq (hamid : Amid serviceDir files tree world.tree)
    (hfree : tree.LinkFree) (hapart : Apart serviceDir controllerDir tree files)
    (hnames : ∀ name ∈ names, ∀ file, ServiceFile.ofPath? name = some file → file ∈ files)
    (hall : List.Forall₂ (Ready serviceDir controllerDir tree) names steps) :
    ∃ logged, generateBatch serviceDir controllerDir names world =
      .ok (steps.map fun step => step.1.controllerPath controllerDir)
        ⟨world.tree.putAll (steps.map (writeOf controllerDir tree)),
          world.printed ++ told names steps, logged⟩ :=
  ((hamid.generatesEach_iff hfree hapart hnames).mpr ⟨hall, rfl⟩).generateBatch_eq

/-- A batch that succeeds is a list of writes that are known before it starts. -/
theorem ready_of_batch (hfree : world.tree.LinkFree)
    (hapart : Apart serviceDir controllerDir world.tree (names.filterMap ServiceFile.ofPath?))
    (hok : generateBatch serviceDir controllerDir names world = .ok targets after) :
    ∃ steps, List.Forall₂ (Ready serviceDir controllerDir world.tree) names steps ∧
      targets = (steps.map fun step => step.1.controllerPath controllerDir) ∧
      after.tree = world.tree.putAll (steps.map (writeOf controllerDir world.tree)) ∧
      after.printed = world.printed ++ told names steps ∧
      Effect serviceDir controllerDir world.tree after.tree (steps.map Prod.fst) := by
  have hstart := Amid.refl hfree serviceDir (names.filterMap ServiceFile.ofPath?)
  have hnames : ∀ name ∈ names, ∀ file, ServiceFile.ofPath? name = some file →
      file ∈ names.filterMap ServiceFile.ofPath? := fun name hname file hfile =>
    List.mem_filterMap.mpr ⟨name, hname, hfile⟩
  obtain ⟨steps, hsteps⟩ := generatesEach_of_batch hok
  obtain ⟨logged, heq⟩ := hsteps.generateBatch_eq
  obtain ⟨rfl, hafter⟩ := EStateM.Result.ok.inj (hok.symm.trans heq)
  obtain ⟨hall, hlast⟩ := (hstart.generatesEach_iff hfree hapart hnames).mp hsteps
  refine ⟨steps, hall, rfl, hlast, congrArg World.printed hafter, ?_⟩
  exact hlast ▸ effect_of_ready hfree hall (hstart.putAll hapart hnames hall)

theorem effect_of_batch (hfree : world.tree.LinkFree)
    (hapart : Apart serviceDir controllerDir world.tree (names.filterMap ServiceFile.ofPath?))
    (hok : generateBatch serviceDir controllerDir names world = .ok targets after) :
    ∃ files : List ServiceFile, names.map ServiceFile.ofPath? = files.map some ∧
      targets = files.map (ServiceFile.controllerPath controllerDir) ∧
      Effect serviceDir controllerDir world.tree after.tree files := by
  obtain ⟨steps, hall, rfl, -, -, heffect⟩ := ready_of_batch hfree hapart hok
  exact ⟨steps.map Prod.fst, map_ofPath?_of_ready hall, by rw [List.map_map]; rfl, heffect⟩

/-- The effect of a batch that succeeds: only the controllers are written, and each of them holds
what was made from the last service that has it. With different base names that is one file for each
service, in every order. The batch once more writes the same. -/
theorem generateBatch_effect (hfree : world.tree.LinkFree)
    (hapart : Apart serviceDir controllerDir world.tree (names.filterMap ServiceFile.ofPath?))
    (hok : generateBatch serviceDir controllerDir names world = .ok targets after) :
    ∃ files : List ServiceFile, names.map ServiceFile.ofPath? = files.map some ∧
      targets = files.map (ServiceFile.controllerPath controllerDir) ∧
      Effect serviceDir controllerDir world.tree after.tree files ∧
      ((files.map ServiceFile.baseName).Nodup →
        (targets.map world.tree.placeOf).Nodup ∧
          ∀ order : List Path, order.Perm names → ∃ others done,
            generateBatch serviceDir controllerDir order world = .ok others done ∧
              others.Perm targets ∧
              (∀ place, done.tree.entry? place = after.tree.entry? place) ∧
              ∀ file ∈ files,
                HasController serviceDir controllerDir world.tree done.tree file) ∧
      ∃ told again, after.printed = world.printed ++ told ∧
        generateBatch serviceDir controllerDir names after = .ok targets again ∧
        again.tree = after.tree ∧ again.printed = after.printed ++ told := by
  have hstart := Amid.refl hfree serviceDir (names.filterMap ServiceFile.ofPath?)
  have hlisted (order : List Path) (hperm : order.Perm names) : ∀ name ∈ order, ∀ file,
      ServiceFile.ofPath? name = some file → file ∈ names.filterMap ServiceFile.ofPath? :=
    fun name hname file hfile => List.mem_filterMap.mpr ⟨name, hperm.mem_iff.mp hname, hfile⟩
  obtain ⟨steps, hall, rfl, hlast, hprinted, heffect⟩ := ready_of_batch hfree hapart hok
  have hroot := ne_nil_of_ready hall
  refine ⟨steps.map Prod.fst, map_ofPath?_of_ready hall, by rw [List.map_map]; rfl, heffect, ?_, ?_⟩
  · intro hbases
    have hnodup := nodup_places hall (by rwa [List.map_map] at hbases)
    refine ⟨by rwa [List.map_map] at hnodup ⊢, fun order hperm => ?_⟩
    -- the steps of the other order are the same steps in that order
    obtain ⟨moved, hmoved, hpermuted⟩ := List.perm_comp_forall₂ hperm hall
    obtain ⟨logged, hdone⟩ := hstart.generateBatch_eq hfree hapart (hlisted order hperm) hmoved
    refine ⟨_, _, hdone, hpermuted.map _, fun place => ?_, fun file hfile => ?_⟩
    · rw [hlast]
      exact entry?_putAll_perm (hpermuted.map _) hroot hnodup place
    · have hfiles := hpermuted.map Prod.fst
      have heffect := effect_of_ready hfree hmoved (hstart.putAll hapart (hlisted order hperm) hmoved)
      exact heffect.hasController ((hfiles.map _).nodup_iff.mpr hbases) (hfiles.mem_iff.mpr hfile)
  · have hnames := hlisted names (.refl names)
    have hend := hstart.putAll hapart hnames hall
    rw [← hlast] at hend
    obtain ⟨logged, hdone⟩ := hend.generateBatch_eq hfree hapart hnames hall
    refine ⟨told names steps, _, hprinted, hdone, ?_, rfl⟩
    exact hlast ▸ putAll_putAll hroot

/-- A tree with two services. -/
def twoServices : FileTree :=
  ⟨[], [(["c"], .dir), (["s"], .dir),
    (["s", "a.service.ts"], .file (.text "public find(id: string)")),
    (["s", "b.service.ts"], .file (.text "public list()"))]⟩

theorem generateBatch_effect_twoServices :
    ∃ targets after, generateBatch "s" "c" ["b.service.ts", "a.service.ts", "b.service.ts"]
        (.ofTree twoServices) = .ok targets after ∧
      (∃ files, targets = files.map (ServiceFile.controllerPath "c") ∧
        Effect "s" "c" twoServices after.tree files) ∧
      ∃ again, generateBatch "s" "c" ["b.service.ts", "a.service.ts", "b.service.ts"] after =
        .ok targets again ∧ again.tree = after.tree := by
  have hfree : twoServices.LinkFree := by decide +kernel
  have hapart : Apart "s" "c" twoServices
      (List.filterMap ServiceFile.ofPath? ["b.service.ts", "a.service.ts", "b.service.ts"]) := by
    unfold Apart
    decide +kernel
  have hok : Run.isOk (generateBatch "s" "c" ["b.service.ts", "a.service.ts", "b.service.ts"]
      (.ofTree twoServices)) = true := by decide +kernel
  obtain ⟨targets, after, hok⟩ := Run.exists_ok_of_isOk hok
  obtain ⟨files, -, htargets, heffect, -, told, again, -, hagain, htree, -⟩ :=
    generateBatch_effect hfree hapart hok
  exact ⟨targets, after, hok, ⟨files, htargets, heffect⟩, again, hagain, htree⟩

end ServiceScaffold.Controller
