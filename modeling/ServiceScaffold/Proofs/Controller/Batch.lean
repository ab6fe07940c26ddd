import ServiceScaffold.Controller.Batch
import ServiceScaffold.Proofs.FileTree.Reach
import ServiceScaffold.Proofs.Run.History
import ServiceScaffold.Proofs.Service.Name

/-! # Batches and their parts

A batch generates one controller after another. A batch of two lists is the batch of the first, and
then the batch of the second in the tree that the first one left. A batch that fails has done all of
the names before the one that it fails at, and nothing of that name or a later one.
-/

namespace ServiceScaffold

namespace ServiceFile

/-- Where a batch reads the service. -/
def sourcePath (serviceDir : Path) (file : ServiceFile) : Path := Path.join serviceDir file.fileName

/-- Where a batch writes the service's controller. -/
def controllerPath (controllerDir : Path) (file : ServiceFile) : Path :=
  Path.join controllerDir file.controllerFile

end ServiceFile

namespace Controller

variable {serviceDir controllerDir : Path} {name : Path} {names : List Path}
variable {world after : World} {failure : Failure} {next : FileTree} {file : ServiceFile} {source : Text}

/-! ## One controller -/

/-- What the generation of one controller comes to: the service is read in the first tree, and the
second tree is the first one with the controller. -/
structure Generates (serviceDir controllerDir : Path) (tree next : FileTree) (name : Path)
    (file : ServiceFile) (source : Text) : Prop where
  parsed : ServiceFile.ofPath? name = some file
  read : tree.read (file.sourcePath serviceDir) = .ok source
  written : Change.writeFile (file.controllerPath controllerDir)
    (.text (ofSource file source).render) tree = .ok () next

/-- The notice of a controller that was written. -/
def notice (file : ServiceFile) : Output := .notice (.controllerGenerated file.controllerFile)

/-- What the generation of a controller logs. -/
def events (file : ServiceFile) (source : Text) (target : Path) : List Event :=
  (extractMethods source).signatures.map .methodExtracted
    ++ [.controllerWritten file.fileName (ofSource file source).routes.length target]

theorem logMethods_apply (signatures : List MethodSignature) (world : World) :
    logMethods signatures world =
      .ok () { world with logged := world.logged ++ signatures.map .methodExtracted } := by
  induction signatures generalizing world with
  | nil =>
      rw [List.map_nil, List.append_nil]
      rfl
  | cons signature signatures ih =>
      change logMethods signatures { world with logged := world.logged ++ [_] } = _
      rw [ih, List.map_cons]
      simp only [List.append_assoc, List.singleton_append]

theorem readMethods_apply (source : Text) (world : World) :
    readMethods source world =
      .ok (extractMethods source) { world with
        logged := world.logged ++ (extractMethods source).signatures.map .methodExtracted } :=
  Run.bind_of_ok (logMethods_apply _ world) _

/-- Once its service is read, the generation of a controller is a write with an event and a notice
behind it. -/
theorem generate_of_read (hparsed : ServiceFile.ofPath? name = some file)
    (hread : world.tree.read (file.sourcePath serviceDir) = .ok source) :
    generate serviceDir controllerDir name world =
      (do
        Run.change (.writeController (file.controllerPath controllerDir))
          (Change.writeFile (file.controllerPath controllerDir) (.text (ofSource file source).render))
        Run.log (.controllerWritten file.fileName (ofSource file source).routes.length
          (file.controllerPath controllerDir))
        Run.tell (.controllerGenerated file.controllerFile)
        pure (file.controllerPath controllerDir) : Run Path)
      { world with logged :=
          world.logged ++ (extractMethods source).signatures.map .methodExtracted } := by
  have hlook : Run.look (.readService (file.sourcePath serviceDir))
      (fun tree => tree.read (file.sourcePath serviceDir)) world = .ok source world :=
    Run.look_eq_ok_iff.mpr ⟨hread, rfl⟩
  unfold generate
  rw [hparsed]
  refine (Run.bind_of_ok hlook _).trans ?_
  exact Run.bind_of_ok (readMethods_apply source world) _

theorem Generates.generate_eq
    (hstep : Generates serviceDir controllerDir world.tree next name file source) :
    generate serviceDir controllerDir name world =
      .ok (file.controllerPath controllerDir) ⟨next, world.printed ++ [notice file],
        world.logged ++ events file source (file.controllerPath controllerDir)⟩ := by
  rw [generate_of_read hstep.parsed hstep.read]
  refine (Run.bind_of_ok (Run.change_of_ok _ hstep.written _ _) _).trans ?_
  rw [events, ← List.append_assoc]
  rfl

/-- Every way in which the generation of a controller can end: the name is refused, the service cannot be
read, the controller cannot be written, or all of it can be done. -/
theorem generate_cases (serviceDir controllerDir name : Path) (world : World) :
    (ServiceFile.ofPath? name = none ∧
      generate serviceDir controllerDir name world = .error (.unsupportedName name) world) ∨
    (∃ file fault, ServiceFile.ofPath? name = some file ∧
      world.tree.read (file.sourcePath serviceDir) = .error fault ∧
      generate serviceDir controllerDir name world =
        .error (.readService (file.sourcePath serviceDir) fault) world) ∨
    (∃ file source fault after, ServiceFile.ofPath? name = some file ∧
      world.tree.read (file.sourcePath serviceDir) = .ok source ∧
      generate serviceDir controllerDir name world =
        .error (.writeController (file.controllerPath controllerDir) fault) after ∧
      after.tree = world.tree ∧ after.printed = world.printed) ∨
    ∃ file source next, Generates serviceDir controllerDir world.tree next name file source := by
  cases hparsed : ServiceFile.ofPath? name with
  | none =>
      refine Or.inl ⟨rfl, ?_⟩
      rw [generate, hparsed]
      rfl
  | some file =>
      cases hread : world.tree.read (file.sourcePath serviceDir) with
      | error fault =>
          refine Or.inr (Or.inl ⟨file, fault, rfl, hread, ?_⟩)
          rw [generate, hparsed]
          exact Run.bind_of_error (Run.look_of_error _ hread) _
      | ok source =>
          cases hwrite : Change.writeFile (file.controllerPath controllerDir)
            (.text (ofSource file source).render) world.tree with
          | ok value next =>
              exact Or.inr (Or.inr (Or.inr ⟨file, source, next, hparsed, hread, hwrite⟩))
          | error fault next =>
              refine Or.inr (Or.inr (Or.inl ⟨file, source, fault, _, rfl, hread,
                (generate_of_read hparsed hread).trans
                  (Run.bind_of_error (Run.change_of_error _ hwrite _ _) _), ?_, rfl⟩))
              exact FileTree.writeFile_error hwrite

/-- The generation of a controller can be done as described, or it fails and leaves the tree alone. -/
theorem generates_or_error (serviceDir controllerDir name : Path) (world : World) :
    (∃ file source next, Generates serviceDir controllerDir world.tree next name file source) ∨
      ∃ failure after, generate serviceDir controllerDir name world = .error failure after ∧
        after.tree = world.tree ∧ after.printed = world.printed := by
  rcases generate_cases serviceDir controllerDir name world with
    ⟨-, hfail⟩ | ⟨_, _, -, -, hfail⟩ | ⟨_, _, _, after, -, -, hfail, hsame⟩ | hstep
  · exact Or.inr ⟨_, world, hfail, rfl, rfl⟩
  · exact Or.inr ⟨_, world, hfail, rfl, rfl⟩
  · exact Or.inr ⟨_, after, hfail, hsame⟩
  · exact Or.inl hstep

theorem generate_unsupported_iff {path : Path} :
    generate serviceDir controllerDir name world = .error (.unsupportedName path) after ↔
      ServiceFile.ofPath? name = none ∧ path = name ∧ after = world := by
  constructor
  · intro hfail
    rcases generate_cases serviceDir controllerDir name world with
      ⟨hparsed, hgenerate⟩ | ⟨_, _, -, -, hgenerate⟩ | ⟨_, _, _, _, -, -, hgenerate, -⟩ |
        ⟨_, _, _, hstep⟩
    · rw [hgenerate] at hfail
      cases hfail
      exact ⟨hparsed, rfl, rfl⟩
    · rw [hgenerate] at hfail
      cases hfail
    · rw [hgenerate] at hfail
      cases hfail
    · rw [hstep.generate_eq] at hfail
      cases hfail
  · rintro ⟨hparsed, rfl, rfl⟩
    rw [generate, hparsed]
    rfl

theorem generate_eq_ok_iff {target : Path} :
    generate serviceDir controllerDir name world = .ok target after ↔
      ∃ file source next,
        Generates serviceDir controllerDir world.tree next name file source ∧
          target = file.controllerPath controllerDir ∧
          after = ⟨next, world.printed ++ [notice file],
            world.logged ++ events file source target⟩ := by
  constructor
  · intro hok
    rcases generates_or_error serviceDir controllerDir name world with
      ⟨file, source, next, hstep⟩ | ⟨failure, middle, herror, -⟩
    · rw [hstep.generate_eq] at hok
      cases hok
      exact ⟨file, source, next, hstep, rfl, rfl⟩
    · rw [herror] at hok
      cases hok
  · rintro ⟨file, source, next, hstep, rfl, rfl⟩
    exact hstep.generate_eq

theorem generate_error
    (hfail : generate serviceDir controllerDir name world = .error failure after) :
    after.tree = world.tree ∧ after.printed = world.printed := by
  rcases generates_or_error serviceDir controllerDir name world with
    ⟨file, source, next, hstep⟩ | ⟨cause, middle, herror, hsame⟩
  · rw [hstep.generate_eq] at hfail
    cases hfail
  · rw [herror] at hfail
    cases hfail
    exact hsame

theorem ignoresHistory_logMethods (signatures : List MethodSignature) :
    (logMethods signatures).IgnoresHistory := by
  induction signatures with
  | nil => exact Run.ignoresHistory_pure ()
  | cons signature signatures ih => exact (Run.ignoresHistory_log _).bind fun _ => ih

theorem ignoresHistory_generate (serviceDir controllerDir name : Path) :
    (generate serviceDir controllerDir name).IgnoresHistory := by
  unfold generate
  split
  next => exact Run.ignoresHistory_fail _
  next file _ =>
    refine (Run.ignoresHistory_look _ _).bind fun source => ?_
    refine Run.IgnoresHistory.bind ?_ fun methods => ?_
    · exact (ignoresHistory_logMethods _).bind fun _ => Run.ignoresHistory_pure _
    refine (Run.ignoresHistory_change _ _).bind fun _ => ?_
    refine (Run.ignoresHistory_log _).bind fun _ => ?_
    exact (Run.ignoresHistory_tell _).bind fun _ => Run.ignoresHistory_pure _

/-! ## Lists of names -/

theorem ignoresHistory_generateEach (serviceDir controllerDir : Path) (names : List Path) :
    (generateEach serviceDir controllerDir names).IgnoresHistory := by
  induction names with
  | nil => exact Run.ignoresHistory_pure _
  | cons name names ih =>
      refine (ignoresHistory_generate _ _ name).bind fun _ => ?_
      exact ih.bind fun _ => Run.ignoresHistory_pure _

theorem generateEach_append (serviceDir controllerDir : Path) (first second : List Path) :
    generateEach serviceDir controllerDir (first ++ second) =
      (do
        let targets ← generateEach serviceDir controllerDir first
        let more ← generateEach serviceDir controllerDir second
        pure (targets ++ more)) := by
  induction first with
  | nil => simp only [List.nil_append, generateEach, pure_bind, bind_pure]
  | cons name first ih =>
      simp only [List.cons_append, generateEach, ih, bind_assoc, pure_bind]

/-- The controllers of names are generated one after another, each in the tree that those before it
left; the last list holds each service file with its source. -/
inductive GeneratesEach (serviceDir controllerDir : Path) :
    FileTree → FileTree → List Path → List (ServiceFile × Text) → Prop
  | nil (tree : FileTree) : GeneratesEach serviceDir controllerDir tree tree [] []
  | cons {tree next last : FileTree} {name : Path} {names : List Path} {file : ServiceFile}
      {source : Text} {steps : List (ServiceFile × Text)}
      (hstep : Generates serviceDir controllerDir tree next name file source)
      (hrest : GeneratesEach serviceDir controllerDir next last names steps) :
      GeneratesEach serviceDir controllerDir tree last (name :: names) ((file, source) :: steps)

variable {last : FileTree} {steps : List (ServiceFile × Text)} {targets more first second : List Path}
variable {middle : World}

theorem GeneratesEach.generateEach_eq {tree : FileTree}
    (hsteps : GeneratesEach serviceDir controllerDir tree last names steps) (world : World)
    (htree : world.tree = tree) :
    ∃ logged, generateEach serviceDir controllerDir names world =
      .ok (steps.map fun step => step.1.controllerPath controllerDir)
        ⟨last, world.printed ++ steps.map fun step => notice step.1, logged⟩ := by
  induction hsteps generalizing world with
  | nil tree =>
      subst htree
      refine ⟨world.logged, ?_⟩
      simp only [List.map_nil, List.append_nil]
      rfl
  | cons hstep hrest ih =>
      subst htree
      obtain ⟨logged, hlast⟩ := ih ⟨_, _, _⟩ rfl
      refine ⟨logged, (Run.bind_of_ok hstep.generate_eq _).trans ?_⟩
      refine (Run.bind_of_ok hlast _).trans ?_
      rw [List.append_assoc]
      rfl

theorem generatesEach_of_ok
    (hok : generateEach serviceDir controllerDir names world = .ok targets after) :
    ∃ steps, GeneratesEach serviceDir controllerDir world.tree after.tree names steps := by
  induction names generalizing world targets with
  | nil =>
      obtain ⟨-, rfl⟩ := Run.pure_eq_ok_iff.mp hok
      exact ⟨[], .nil _⟩
  | cons name names ih =>
      obtain ⟨target, middle, hname, hok⟩ := Run.bind_eq_ok_iff.mp hok
      obtain ⟨others, later, hnames, hok⟩ := Run.bind_eq_ok_iff.mp hok
      obtain ⟨-, rfl⟩ := Run.pure_eq_ok_iff.mp hok
      obtain ⟨file, source, next, hstep, -, rfl⟩ := generate_eq_ok_iff.mp hname
      obtain ⟨steps, hsteps⟩ := ih hnames
      exact ⟨(file, source) :: steps, .cons hstep hsteps⟩

theorem GeneratesEach.filterMap_ofPath? {tree : FileTree}
    (hsteps : GeneratesEach serviceDir controllerDir tree last names steps) :
    names.filterMap ServiceFile.ofPath? = steps.map Prod.fst := by
  induction hsteps with
  | nil => rfl
  | cons hstep _ ih => rw [List.filterMap_cons, hstep.parsed, List.map_cons, ← ih]

theorem GeneratesEach.length_eq {tree : FileTree}
    (hsteps : GeneratesEach serviceDir controllerDir tree last names steps) :
    steps.length = names.length := by
  induction hsteps with
  | nil => rfl
  | cons _ _ ih => rw [List.length_cons, List.length_cons, ih]

/-- The notices of the names, one for each of them that is a service file's. -/
def notices (names : List Path) : List Output :=
  (names.filterMap ServiceFile.ofPath?).map notice

/-- A list of names is done completely, or up to a name at which the tree stays as it is. -/
theorem generateEach_error
    (hfail : generateEach serviceDir controllerDir names world = .error failure after) :
    ∃ (k : Nat) (hk : k < names.length) (targets : List Path) (middle : World),
      generateEach serviceDir controllerDir (names.take k) world = .ok targets middle ∧
        generate serviceDir controllerDir names[k] middle = .error failure after := by
  induction names generalizing world with
  | nil => cases hfail
  | cons name names ih =>
      -- the first name fails, or it succeeds and the failure is that of a later one
      rcases Run.bind_eq_error_iff.mp hfail with hname | ⟨target, middle, hname, hrest⟩
      · exact ⟨0, Nat.zero_lt_succ _, [], world, rfl, hname⟩
      · rcases Run.bind_eq_error_iff.mp hrest with hnames | ⟨others, later, -, hpure⟩
        · obtain ⟨k, hk, targets, later, htake, hlast⟩ := ih hnames
          refine ⟨k + 1, Nat.succ_lt_succ hk, target :: targets, later, ?_, hlast⟩
          exact (Run.bind_of_ok hname _).trans (Run.bind_of_ok htake _)
        · cases hpure

theorem generateEach_append_of_ok
    (hfirst : generateEach serviceDir controllerDir first world = .ok targets middle)
    (hsecond : generateEach serviceDir controllerDir second middle = .ok more after) :
    generateEach serviceDir controllerDir (first ++ second) world = .ok (targets ++ more) after := by
  rw [generateEach_append, Run.bind_of_ok hfirst, Run.bind_of_ok hsecond]
  rfl

theorem generateEach_append_of_error
    (hfirst : generateEach serviceDir controllerDir first world = .ok targets middle)
    (hsecond : generateEach serviceDir controllerDir second middle = .error failure after) :
    generateEach serviceDir controllerDir (first ++ second) world = .error failure after := by
  rw [generateEach_append, Run.bind_of_ok hfirst, Run.bind_of_error hsecond]

/-! ## Batches -/

/-- The notice of a batch that is done. -/
def summary (count : Nat) : Output := .notice (.batchFinished count)

/-- The world after the summary of a batch. -/
def finished (count written : Nat) (world : World) : World :=
  ⟨world.tree, world.printed ++ [summary count], world.logged ++ [.batchFinished written]⟩

theorem generateBatch_of_ok
    (hok : generateEach serviceDir controllerDir names world = .ok targets after) :
    generateBatch serviceDir controllerDir names world =
      .ok targets (finished names.length targets.length after) := Run.bind_of_ok hok _

theorem generateBatch_of_error
    (hfail : generateEach serviceDir controllerDir names world = .error failure after) :
    generateBatch serviceDir controllerDir names world = .error failure after :=
  Run.bind_of_error hfail _

theorem generateBatch_eq_ok_iff :
    generateBatch serviceDir controllerDir names world = .ok targets after ↔
      ∃ middle, generateEach serviceDir controllerDir names world = .ok targets middle ∧
        after = finished names.length targets.length middle := by
  constructor
  · intro hok
    cases heach : generateEach serviceDir controllerDir names world with
    | ok others middle =>
        rw [generateBatch_of_ok heach] at hok
        cases hok
        exact ⟨middle, rfl, rfl⟩
    | error failure middle =>
        rw [generateBatch_of_error heach] at hok
        cases hok
  · rintro ⟨middle, heach, rfl⟩
    exact generateBatch_of_ok heach

theorem generateBatch_eq_error_iff :
    generateBatch serviceDir controllerDir names world = .error failure after ↔
      generateEach serviceDir controllerDir names world = .error failure after := by
  constructor
  · intro hfail
    cases heach : generateEach serviceDir controllerDir names world with
    | ok targets middle =>
        rw [generateBatch_of_ok heach] at hfail
        cases hfail
    | error cause middle =>
        rw [generateBatch_of_error heach] at hfail
        exact hfail
  · exact generateBatch_of_error

theorem printed_of_generateEach
    (hok : generateEach serviceDir controllerDir names world = .ok targets after) :
    after.printed = world.printed ++ notices names ∧ (notices names).length = names.length := by
  obtain ⟨steps, hsteps⟩ := generatesEach_of_ok hok
  obtain ⟨logged, heq⟩ := hsteps.generateEach_eq world rfl
  have hafter := (EStateM.Result.ok.inj (hok.symm.trans heq)).2
  rw [notices, hsteps.filterMap_ofPath?, List.map_map, List.length_map, hsteps.length_eq]
  exact ⟨congrArg World.printed hafter, rfl⟩

theorem printed_of_generateBatch
    (hok : generateBatch serviceDir controllerDir names world = .ok targets after) :
    after.printed = world.printed ++ notices names ++ [summary names.length] := by
  obtain ⟨cut, hcut, rfl⟩ := generateBatch_eq_ok_iff.mp hok
  rw [← (printed_of_generateEach hcut).1]
  rfl

/-- The whole list of two batches that succeed ends in the same tree, with the notices of both and
one summary. -/
theorem generateBatch_append_of_ok
    (hfirst : generateBatch serviceDir controllerDir first world = .ok targets middle)
    (hsecond : generateBatch serviceDir controllerDir second middle = .ok more after) :
    ∃ told, after.printed = middle.printed ++ told ++ [summary second.length] ∧
      ∃ whole, generateBatch serviceDir controllerDir (first ++ second) world =
          .ok (targets ++ more) whole ∧
        whole.tree = after.tree ∧
        whole.printed = world.printed ++ notices first ++ told
          ++ [summary (first.length + second.length)] := by
  obtain ⟨cut, hcut, rfl⟩ := generateBatch_eq_ok_iff.mp hfirst
  obtain ⟨last, hlast, rfl⟩ := generateBatch_eq_ok_iff.mp hsecond
  -- from the cut the second list does the same as from the end of the first batch
  obtain ⟨later, rfl, hcontinued⟩ :=
    (ignoresHistory_generateEach serviceDir controllerDir second).ok_from hlast cut rfl
  have hwhole := generateBatch_of_ok (generateEach_append_of_ok hcut hcontinued)
  refine ⟨later.printed, rfl, _, hwhole, rfl, ?_⟩
  rw [← (printed_of_generateEach hcut).1, ← List.length_append]
  rfl

/-- The whole list of a batch that succeeds and one that fails fails like the second one, in the same
tree and with the notices of both. -/
theorem generateBatch_append_of_error
    (hfirst : generateBatch serviceDir controllerDir first world = .ok targets middle)
    (hsecond : generateBatch serviceDir controllerDir second middle = .error failure after) :
    ∃ told, after.printed = middle.printed ++ told ∧
      ∃ whole, generateBatch serviceDir controllerDir (first ++ second) world = .error failure whole ∧
        whole.tree = after.tree ∧
        whole.printed = world.printed ++ notices first ++ told := by
  obtain ⟨cut, hcut, rfl⟩ := generateBatch_eq_ok_iff.mp hfirst
  obtain ⟨later, rfl, hcontinued⟩ :=
    (ignoresHistory_generateEach serviceDir controllerDir second).error_from
      (generateBatch_eq_error_iff.mp hsecond) cut rfl
  have hwhole := generateBatch_of_error (generateEach_append_of_error hcut hcontinued)
  refine ⟨later.printed, rfl, _, hwhole, rfl, ?_⟩
  rw [← (printed_of_generateEach hcut).1]
  rfl

/-- A batch that fails has done the names before the one that it fails at, as a batch of their own
would have, and that name by itself fails there in the same way. -/
theorem exists_take_of_generateBatch
    (hfail : generateBatch serviceDir controllerDir names world = .error failure after) :
    ∃ (k : Nat) (hk : k < names.length) (targets : List Path) (middle final : World),
      generateBatch serviceDir controllerDir (names.take k) world = .ok targets middle ∧
        generate serviceDir controllerDir names[k] middle = .error failure final ∧
        after.tree = middle.tree ∧
        after.printed = world.printed ++ notices (names.take k) ∧
        (notices (names.take k)).length = k := by
  obtain ⟨k, hk, targets, cut, htake, hname⟩ :=
    generateEach_error (generateBatch_eq_error_iff.mp hfail)
  obtain ⟨hprinted, hlength⟩ := printed_of_generateEach htake
  obtain ⟨htree, hsilent⟩ := generate_error hname
  have htaken := generateBatch_of_ok htake
  -- the name at which the batch stops fails in the same way behind the summary
  obtain ⟨later, -, hagain⟩ := (ignoresHistory_generate serviceDir controllerDir names[k]).error_from
    hname (finished (names.take k).length targets.length cut) rfl
  refine ⟨k, hk, targets, _, _, htaken, hagain, htree, hsilent.trans hprinted, ?_⟩
  rw [hlength, List.length_take_of_le hk.le]

/-- A batch that succeeds can be cut anywhere: after the first list the second one is done in the
tree that the first one left, with the same end, and the summary counts both. A batch that fails has
done exactly the names before the one that it fails at. -/
theorem generateBatch_law (serviceDir controllerDir : Path) (world : World) :
    (∀ first second targets middle,
      generateBatch serviceDir controllerDir first world = .ok targets middle →
        middle.printed = world.printed ++ notices first ++ [summary first.length] ∧
          ∃ told, match generateBatch serviceDir controllerDir second middle with
            | .ok more after =>
              after.printed = middle.printed ++ told ++ [summary second.length] ∧
                ∃ whole, generateBatch serviceDir controllerDir (first ++ second) world =
                    .ok (targets ++ more) whole ∧
                  whole.tree = after.tree ∧
                  whole.printed = world.printed ++ notices first ++ told
                    ++ [summary (first.length + second.length)]
            | .error failure after =>
              after.printed = middle.printed ++ told ∧
                ∃ whole, generateBatch serviceDir controllerDir (first ++ second) world =
                    .error failure whole ∧
                  whole.tree = after.tree ∧
                  whole.printed = world.printed ++ notices first ++ told) ∧
      ∀ names failure after,
        generateBatch serviceDir controllerDir names world = .error failure after →
          ∃ (k : Nat) (hk : k < names.length) (targets : List Path) (middle final : World),
            generateBatch serviceDir controllerDir (names.take k) world = .ok targets middle ∧
              generate serviceDir controllerDir names[k] middle = .error failure final ∧
              after.tree = middle.tree ∧
              after.printed = world.printed ++ notices (names.take k) ∧
              (notices (names.take k)).length = k := by
  constructor
  · intro first second targets middle hfirst
    refine ⟨printed_of_generateBatch hfirst, ?_⟩
    cases hsecond : generateBatch serviceDir controllerDir second middle with
    | ok more after => exact generateBatch_append_of_ok hfirst hsecond
    | error failure after => exact generateBatch_append_of_error hfirst hsecond
  · intro names failure after hfail
    exact exists_take_of_generateBatch hfail

/-- A tree with one service. -/
def oneService : FileTree :=
  ⟨[], [(["c"], .dir), (["s"], .dir),
    (["s", "a.service.ts"], .file (.text "public find(id: string)"))]⟩

theorem generateBatch_law_oneService :
    (∃ targets middle, generateBatch "s" "c" ["a.service.ts"] (.ofTree oneService) =
        .ok targets middle ∧
      middle.printed = notices ["a.service.ts"] ++ [summary 1]) ∧
    ∃ failure after, generateBatch "s" "c" ["a.service.ts", "b.service.ts"] (.ofTree oneService) =
        .error failure after ∧
      ∃ k < 2, ∃ targets middle,
        generateBatch "s" "c" (List.take k ["a.service.ts", "b.service.ts"]) (.ofTree oneService) =
          .ok targets middle ∧
        after.tree = middle.tree := by
  constructor
  · have hok : Run.isOk (generateBatch "s" "c" ["a.service.ts"] (.ofTree oneService)) = true := by
      decide +kernel
    obtain ⟨targets, middle, hok⟩ := Run.exists_ok_of_isOk hok
    have hcut := (generateBatch_law "s" "c" (.ofTree oneService)).1 _ [] _ _ hok
    exact ⟨targets, middle, hok, hcut.1⟩
  · have hfail : Run.isOk (generateBatch "s" "c" ["a.service.ts", "b.service.ts"]
        (.ofTree oneService)) = false := by decide +kernel
    obtain ⟨failure, after, hfail⟩ := Run.exists_error_of_isOk hfail
    obtain ⟨k, hk, targets, middle, final, hbatch, -, htree, -⟩ :=
      (generateBatch_law "s" "c" (.ofTree oneService)).2 _ _ _ hfail
    exact ⟨failure, after, hfail, k, hk, targets, middle, hbatch, htree⟩

end Controller

end ServiceScaffold
