import ServiceScaffold.OpenApi.Import
import ServiceScaffold.Proofs.OpenApi.Offer

/-! # Importing generated sources, exactly

What the generator's directory offers is laid over the directory of the module, place by place, and then the
generator's directory is removed. Nothing else changes, apart from directories that are created on the way to
the module. Until the generator's directory is removed nothing in it is lost.
-/

namespace ServiceScaffold

open FileTree

namespace Run

variable {way : Location → Prop} {source target name : Path} {world after : World} {count : Nat}
variable {copied : Bool}

theorem brings_of_copyDir (hsound : world.tree.Sound) (hapart : world.tree.ApartAt source target)
    (hway : ∀ place, world.tree.Passes target place → place ≠ world.tree.placeOf target → way place)
    (hok : copyDir source target world = .ok count after) :
    Brings way source target count world.tree after.tree := by
  by_cases hdir : world.tree.isDir source = true
  · obtain ⟨made, hcopied⟩ := exists_dirCopied hsound hapart hdir hok
    have hheld : world.tree.entry? (world.tree.placeOf source) = some .dir :=
      hsound.entry?_of_passable (hsound.isDir_iff.mp hdir).2
    have hlaid := hcopied.laidOver hheld hapart
    refine ⟨⟨hcopied.lays.workingDir.trans hcopied.created.workingDir, fun place hplace => ?_,
      fun place hoff => ?_⟩, hcopied.sound, fun names => ?_, fun names => ?_, ?_⟩
    · have hmade := hcopied.created.orCreated place
      rw [hplace] at hmade
      exact hcopied.lays.dir_of_lays hmade.eq_some
    · refine (hlaid.outside place hoff).mono fun hpasses => hway place hpasses ?_
      rintro rfl
      exact hoff List.prefix_rfl
    · rw [overlaid?, entryIn?, if_pos hdir]
      cases hentry : world.tree.entry? (world.tree.placeOf source ++ names) with
      | some entry => exact Or.inl (hlaid.brought names entry hentry)
      | none =>
          have hne : names ≠ [] := by
            rintro rfl
            rw [List.append_nil, hheld] at hentry
            cases hentry
          refine (hlaid.kept names hentry).mono (Or.imp (fun hpasses => hway _ hpasses ?_)
            fun hpasses => hway _ hpasses ?_)
          · simp [hne]
          · have hplace := hapart names []
            rwa [List.append_nil] at hplace
    · rw [entryIn?, if_pos hdir]
      exact hcopied.not_clash hheld hapart names
    · rw [hcopied.count_eq hsound, filesIn, if_pos hdir]
  · rw [copyDir_of_not_isDir hdir] at hok
    cases hok
    exact ⟨⟨rfl, fun _ => id, fun _ _ => Or.inl rfl⟩, hsound,
      fun names => by rw [overlaid?, entryIn?, if_neg hdir]; exact Or.inl rfl,
      fun names => by rw [entryIn?, if_neg hdir]; exact id, by rw [filesIn, if_neg hdir]; rfl⟩

/-- A loose file is put in place of what the target holds. -/
theorem importStep_of_copyFileIfThere (hsound : world.tree.Sound) (hname : Path.IsSegment name)
    (hne : world.tree.placeOf (Path.join source name) ≠ world.tree.placeOf (Path.join target name))
    (hok : copyFileIfThere (Path.join source name) (Path.join target name) world = .ok copied after) :
    ImportStep source (fun _ => False) (· = world.tree.placeOf (Path.join target name)) world.tree after.tree ∧
      after.tree.entry? (world.tree.placeOf (Path.join target name)) =
        (world.tree.regularAt? (Path.join source name)).or
          (world.tree.entry? (world.tree.placeOf (Path.join target name))) ∧
      copied = world.tree.isFile (Path.join source name) := by
  by_cases hfile : world.tree.isFile (Path.join source name) = true
  · rw [copyFileIfThere, bind_of_ok (rfl : tree world = .ok world.tree world), if_pos hfile] at hok
    obtain ⟨⟨⟩, last, hcopy, hok⟩ := bind_eq_ok_iff.mp hok
    obtain ⟨rfl, rfl⟩ := pure_eq_ok_iff.mp hok
    have hdone := tree_of_change_ok hcopy
    obtain ⟨content, hfind, -, hdir, hroot, hput⟩ := Change.put_of_copyFile hsound.plain hne hdone
    refine ⟨⟨⟨by rw [hput, put_workingDir], fun place hplace => ?_, fun place hoff => ?_⟩,
      (Change.keeps_sound_copyFile hname _).of_ok hdone hsound, fun hstuck => ?_⟩, ?_, hfile.symm⟩
    · rw [hput, entry?_put hroot, if_neg, hplace]
      rintro rfl
      exact hdir hplace
    · rw [hput, entry?_put hroot, if_neg hoff]
      exact Or.inl rfl
    · exact absurd ((isFile_join_iff hname hsound.plain.linkFree).mp hfile).2.1 hstuck
    · rw [hput, entry?_put hroot, if_pos rfl, regularAt?, if_pos hfile,
        (entry?_of_find hsound.plain.linkFree hfind).2, Option.some_or]
  · rw [copyFileIfThere_of_not_isFile hfile] at hok
    cases hok
    exact ⟨.refl hsound, by rw [regularAt?, if_neg hfile, Option.none_or], (Bool.not_eq_true _ ▸ hfile).symm⟩

theorem isFile_of_removeFileIfThere {removed : Bool} (hplain : world.tree.Plain) (hname : Path.IsSegment name)
    (hok : removeFileIfThere (Path.join source name) world = .ok removed after) :
    after.tree.isFile (Path.join source name) = false := by
  obtain ⟨tree, first, htree, hok⟩ := bind_eq_ok_iff.mp hok
  obtain ⟨rfl, rfl⟩ := EStateM.Result.ok.inj htree
  split at hok
  · obtain ⟨⟨⟩, last, hremove, hok⟩ := bind_eq_ok_iff.mp hok
    obtain ⟨-, rfl⟩ := pure_eq_ok_iff.mp hok
    obtain ⟨-, herase⟩ := Change.removeFile_ok hplain.linkFree (tree_of_change_ok hremove)
    rw [herase, ← Bool.not_eq_true, isFile_join_iff hname (hplain.erase _).linkFree]
    rintro ⟨-, -, -, content, hfile⟩
    have hroot : world.tree.placeOf (Path.join source name) ≠ [] := by simp [placeOf_join hname]
    rw [← placeOf_join hname] at hfile
    cases (entry?_erase hroot).symm.trans hfile
  next hfile =>
    obtain ⟨-, rfl⟩ := pure_eq_ok_iff.mp hok
    simpa using hfile

theorem isDir_of_removeDirAllIfThere {removed : Bool} (hplain : world.tree.Plain)
    (hok : removeDirAllIfThere source world = .ok removed after) : after.tree.isDir source = false := by
  obtain ⟨tree, first, htree, hok⟩ := bind_eq_ok_iff.mp hok
  obtain ⟨rfl, rfl⟩ := EStateM.Result.ok.inj htree
  split at hok
  · obtain ⟨⟨⟩, last, hremove, hok⟩ := bind_eq_ok_iff.mp hok
    obtain ⟨-, rfl⟩ := pure_eq_ok_iff.mp hok
    exact Change.isDir_of_removeDirAll hplain (tree_of_change_ok hremove)
  next hdir =>
    obtain ⟨-, rfl⟩ := pure_eq_ok_iff.mp hok
    simpa using hdir

theorem removeDirAllIfThere_of_not_isDir (hdir : ¬ world.tree.isDir source = true) :
    removeDirAllIfThere source world = .ok false world := by
  rw [removeDirAllIfThere, bind_of_ok (rfl : tree world = .ok world.tree world), if_neg hdir]
  rfl

end Run

namespace ImportedSources

variable {generatedDir moduleDir : Path} {world after : World} {count : Nat} {base before : FileTree}
variable {place : Location}

/-! ## Loose files -/

section

variable {first second : Path}

/-- A place in one directory is never one in the other. -/
theorem placeOf_join_ne (hapart : base.ApartAt generatedDir moduleDir) (hfirst : Path.IsSegment first)
    (hsecond : Path.IsSegment second) (names more : List Text) :
    base.placeOf (Path.join generatedDir first) ++ names ≠
      base.placeOf (Path.join moduleDir second) ++ more := by
  rw [placeOf_join hfirst, placeOf_join hsecond, List.append_assoc, List.append_assoc]
  exact hapart _ _

theorem not_inside_of_apart (hapart : base.ApartAt generatedDir moduleDir) (hsecond : Path.IsSegment second)
    (names : List Text) :
    ¬ base.placeOf (Path.join moduleDir second) <+: base.placeOf generatedDir ++ names := by
  rintro ⟨more, heq⟩
  rw [placeOf_join hsecond, List.append_assoc] at heq
  exact hapart _ _ heq.symm

/-- What is inside one name of a directory is not inside another. -/
theorem not_inside_of_ne (hfirst : Path.IsSegment first) (hsecond : Path.IsSegment second)
    (hne : first ≠ second) (base : FileTree) (dir : Path) (names : List Text) :
    ¬ base.placeOf (Path.join dir second) <+: base.placeOf (Path.join dir first) ++ names := by
  rw [placeOf_join hfirst, placeOf_join hsecond, List.append_assoc, List.prefix_append_right_inj,
    List.singleton_append, List.cons_prefix_cons]
  exact fun hinside => hne hinside.1.symm

end

/-- The loose files have ordinary names, and none has the name of a directory that is imported into. -/
theorem looseFiles_apart :
    ∀ name ∈ looseFiles, Path.IsSegment name ∧ name ≠ "model" ∧ name ≠ "services" := by
  decide

theorem importStep_of_copyLoose {loose : List Text} (hsound : world.tree.Sound)
    (hapart : world.tree.ApartAt generatedDir moduleDir) (hloose : ∀ name ∈ loose, Path.IsSegment name)
    (hnodup : loose.Nodup) (hok : copyLoose generatedDir moduleDir loose world = .ok count after) :
    ImportStep generatedDir (fun _ => False)
        (fun place => ∃ name ∈ loose, place = world.tree.placeOf (Path.join moduleDir name))
        world.tree after.tree ∧
      (∀ name ∈ loose, after.tree.entry? (world.tree.placeOf (Path.join moduleDir name)) =
        (world.tree.regularAt? (Path.join generatedDir name)).or
          (world.tree.entry? (world.tree.placeOf (Path.join moduleDir name)))) ∧
      count = loose.countP fun name => world.tree.isFile (Path.join generatedDir name) := by
  induction loose generalizing world count with
  | nil =>
      obtain ⟨rfl, rfl⟩ := Run.pure_eq_ok_iff.mp hok
      exact ⟨.refl hsound, List.forall_mem_nil _, rfl⟩
  | cons name loose ih =>
      obtain ⟨hname, hrest⟩ := List.forall_mem_cons.mp hloose
      obtain ⟨hnotMem, hnodup⟩ := List.nodup_cons.mp hnodup
      obtain ⟨copied, middle, hcopy, hok⟩ := Run.bind_eq_ok_iff.mp hok
      obtain ⟨others, last, hothers, hok⟩ := Run.bind_eq_ok_iff.mp hok
      obtain ⟨rfl, rfl⟩ := Run.pure_eq_ok_iff.mp hok
      have hne := placeOf_join_ne hapart hname hname [] []
      rw [List.append_nil, List.append_nil] at hne
      obtain ⟨hfirst, hput, rfl⟩ := Run.importStep_of_copyFileIfThere hsound hname hne hcopy
      have hplace := placeOf_congr hfirst.workingDir
      have hoff (names : List Text) :
          world.tree.placeOf generatedDir ++ names ≠ world.tree.placeOf (Path.join moduleDir name) :=
        fun heq => not_inside_of_apart hapart hname names (heq ▸ List.prefix_rfl)
      have hdiffers {other : Text} (hother : other ∈ loose) :
          world.tree.placeOf (Path.join moduleDir other) ≠ world.tree.placeOf (Path.join moduleDir name) :=
        fun heq => hnotMem ((placeOf_join_inj (hrest other hother) hname).mp heq ▸ hother)
      obtain ⟨hlater, hputs, hcount⟩ := ih hfirst.sound (hapart.congr hfirst.workingDir) hrest hnodup hothers
      simp only [hplace] at hlater hputs
      refine ⟨(hfirst.mono (fun _ => id) ?_).trans (hlater.mono (fun _ => id) ?_), ?_, ?_⟩
      · rintro place rfl
        exact ⟨name, List.mem_cons_self, rfl⟩
      · rintro place ⟨other, hother, rfl⟩
        exact ⟨other, List.mem_cons_of_mem _ hother, rfl⟩
      · refine List.forall_mem_cons.mpr ⟨?_, fun other hother => ?_⟩
        · -- what was put is not among the later places
          rw [← hput]
          refine (hlater.entries _ ?_).resolve_right fun h => h.1
          rintro ⟨other, hother, heq⟩
          exact hdiffers hother heq.symm
        · rw [hputs other hother, hfirst.regularAt?_eq hsound hoff (hrest other hother),
            (hfirst.entries _ (hdiffers hother)).resolve_right fun h => h.1]
      · have hfiles : loose.countP (fun other => middle.tree.isFile (Path.join generatedDir other)) =
            loose.countP fun other => world.tree.isFile (Path.join generatedDir other) :=
          List.countP_congr fun other hother => by rw [hfirst.isFile_eq hsound hoff (hrest other hother)]
        rw [hcount, hfiles, List.countP_cons, Nat.add_comm]

/-! ## The import up to the removal -/

/-- The index of the module's services. -/
def indexPath (moduleDir : Path) : Path := Path.join (Path.join moduleDir "services") indexFile

/-- What an import does before it removes the generator's directory. Counts the files. -/
def bring (generatedDir moduleDir : Path) : Run Nat := do
  let models ← Run.copyDir (Path.join generatedDir "model") (Path.join moduleDir "model")
  let services ← Run.copyDir (Path.join generatedDir "api") (Path.join moduleDir "services")
  let loose ← copyLoose generatedDir moduleDir looseFiles
  let _ ← Run.removeFileIfThere (indexPath moduleDir)
  pure (models + services + loose)

theorem fetch_eq (generatedDir moduleDir : Path) :
    fetch generatedDir moduleDir = bring generatedDir moduleDir >>= fun count =>
      Run.removeDirAllIfThere generatedDir >>= fun _ => Run.log (.sourcesImported count moduleDir) >>= fun _ =>
        pure ⟨Path.join moduleDir "services", Path.join moduleDir "model", count⟩ := by
  simp only [fetch, bring, indexPath, bind_assoc, pure_bind]

/-- A directory of the module holds at a place what was offered there, laid over what it held. -/
def LaidIn (generatedDir moduleDir source target : Path) (before after : FileTree)
    (names : List Text) : Prop :=
  OrCreated (before.Meets moduleDir (before.placeOf (Path.join moduleDir target) ++ names) ∨
      before.Meets moduleDir (before.placeOf (Path.join generatedDir source) ++ names))
    (before.overlaid? (Path.join generatedDir source) (Path.join moduleDir target) names)
    (after.entry? (before.placeOf (Path.join moduleDir target) ++ names))

/-- What was offered is in the module's directory, but for the services' index, of which no file is kept. -/
structure Moved (generatedDir moduleDir : Path) (before after : FileTree) : Prop where
  models : ∀ names, LaidIn generatedDir moduleDir "model" "model" before after names
  services : ∀ names, LaidIn generatedDir moduleDir "api" "services" before after names ∨
    names = [indexFile] ∧
      (∃ content, before.overlaid? (Path.join generatedDir "api") (Path.join moduleDir "services")
        [indexFile] = some (.file content)) ∧
      after.entry? (before.placeOf (Path.join moduleDir "services") ++ [indexFile]) = none
  loose : ∀ name ∈ looseFiles, OrCreated (before.Meets moduleDir (before.placeOf (Path.join moduleDir name)))
    ((before.regularAt? (Path.join generatedDir name)).or
      (before.entry? (before.placeOf (Path.join moduleDir name))))
    (after.entry? (before.placeOf (Path.join moduleDir name)))

/-- How many files are offered. -/
def offeredCount (generatedDir : Path) (tree : FileTree) : Nat :=
  (tree.filesIn (Path.join generatedDir "model")).length +
    (tree.filesIn (Path.join generatedDir "api")).length +
    looseFiles.countP fun name => tree.isFile (Path.join generatedDir name)

/-- The places that an import writes to. -/
def Target (moduleDir : Path) (tree : FileTree) (place : Location) : Prop :=
  tree.placeOf (Path.join moduleDir "model") <+: place ∨
    tree.placeOf (Path.join moduleDir "services") <+: place ∨
    ∃ name ∈ looseFiles, place = tree.placeOf (Path.join moduleDir name)

theorem copyDir_step {source target : Path} (hsound : world.tree.Sound)
    (hapart : world.tree.ApartAt generatedDir moduleDir) (hsource : Path.IsSegment source)
    (htarget : Path.IsSegment target)
    (hok : Run.copyDir (Path.join generatedDir source) (Path.join moduleDir target) world = .ok count after) :
    Brings (world.tree.Meets moduleDir) (Path.join generatedDir source) (Path.join moduleDir target) count
        world.tree after.tree ∧
      ImportStep generatedDir (world.tree.Meets moduleDir)
        (world.tree.placeOf (Path.join moduleDir target) <+: ·) world.tree after.tree := by
  have hbrings := @Run.brings_of_copyDir (world.tree.Meets moduleDir) _ _ _ _ _ hsound
    (placeOf_join_ne hapart hsource htarget) (fun place => Meets.of_passes_join htarget) hok
  refine ⟨hbrings, hbrings.toChangedIn, hbrings.sound, fun hstuck => ?_⟩
  have hdir : ¬ world.tree.isDir (Path.join generatedDir source) = true := fun hdir =>
    hstuck ((isDir_join_iff hsource hsound.plain.linkFree).mp hdir).2.1
  rw [Run.copyDir_of_not_isDir hdir] at hok
  cases hok
  rfl

section

variable {source target : Path} {middle last : FileTree} {part : Location → Prop} {names : List Text}

theorem LaidIn.later (hlaid : LaidIn generatedDir moduleDir source target before middle names)
    (hstep : ImportStep generatedDir (before.Meets moduleDir) part middle last)
    (hoff : ¬ part (before.placeOf (Path.join moduleDir target) ++ names)) :
    LaidIn generatedDir moduleDir source target before last names :=
  hlaid.trans ((hstep.entries _ hoff).mono Or.inl)

/-- A directory that is copied after a step is laid in as it would have been before the step. -/
theorem laidIn_of_brings (hbefore : before.Sound)
    (hstep : ImportStep generatedDir (before.Meets moduleDir) part before middle)
    (hgenerated : ∀ names, ¬ part (before.placeOf generatedDir ++ names))
    (hmodule : ∀ names, ¬ part (before.placeOf (Path.join moduleDir target) ++ names))
    (hsource : Path.IsSegment source) (hbrings : Brings (middle.Meets moduleDir)
      (Path.join generatedDir source) (Path.join moduleDir target) count middle last) (names : List Text) :
    LaidIn generatedDir moduleDir source target before last names := by
  have hplace := placeOf_congr hstep.workingDir
  have hinside := hbrings.inside names
  have hclash := hbrings.noClash names
  rw [hplace, hplace, meets_congr hstep.workingDir] at hinside
  rw [hplace] at hclash
  refine OrCreated.trans ?_ hinside
  unfold overlaid?
  rw [hplace]
  exact ((hstep.orCreated_entryIn? hbefore hgenerated hsource names).mono Or.inr).or
    ((hstep.entries _ (hmodule names)).mono Or.inl) hclash
    fun target => hstep.sound.plain.linkFree.entry?_ne_link _ target

end

/-- The three copies of an import, seen from the tree before the first of them. -/
structure CopySteps (generatedDir moduleDir : Path) (models services loose : Nat)
    (before first second after : FileTree) : Prop where
  bringsModels : Brings (before.Meets moduleDir) (Path.join generatedDir "model")
    (Path.join moduleDir "model") models before first
  stepModels : ImportStep generatedDir (before.Meets moduleDir)
    (before.placeOf (Path.join moduleDir "model") <+: ·) before first
  bringsServices : Brings (first.Meets moduleDir) (Path.join generatedDir "api")
    (Path.join moduleDir "services") services first second
  stepServices : ImportStep generatedDir (before.Meets moduleDir)
    (before.placeOf (Path.join moduleDir "services") <+: ·) first second
  stepLoose : ImportStep generatedDir (before.Meets moduleDir)
    (fun place => ∃ name ∈ looseFiles, place = before.placeOf (Path.join moduleDir name)) second after
  putLoose : ∀ name ∈ looseFiles, after.entry? (before.placeOf (Path.join moduleDir name)) =
    (second.regularAt? (Path.join generatedDir name)).or
      (second.entry? (before.placeOf (Path.join moduleDir name)))
  countLoose : loose = looseFiles.countP fun name => second.isFile (Path.join generatedDir name)

theorem copySteps_of_copies {models services loose : Nat} {first second copied : World}
    (hsound : world.tree.Sound) (hapart : world.tree.ApartAt generatedDir moduleDir)
    (hmodels : Run.copyDir (Path.join generatedDir "model") (Path.join moduleDir "model") world =
      .ok models first)
    (hservices : Run.copyDir (Path.join generatedDir "api") (Path.join moduleDir "services") first =
      .ok services second)
    (hloose : copyLoose generatedDir moduleDir looseFiles second = .ok loose copied) :
    CopySteps generatedDir moduleDir models services loose world.tree first.tree second.tree
      copied.tree := by
  obtain ⟨hbringsModels, hstepModels⟩ := copyDir_step hsound hapart (by decide) (by decide) hmodels
  obtain ⟨hbringsServices, hstepServices⟩ := copyDir_step hstepModels.sound
    (hapart.congr hstepModels.workingDir) (by decide) (by decide) hservices
  have hworking := hstepServices.workingDir.trans hstepModels.workingDir
  obtain ⟨hstepLoose, hput, hcount⟩ := importStep_of_copyLoose hstepServices.sound
    (hapart.congr hworking) (fun name hname => (looseFiles_apart name hname).1) (by decide) hloose
  rw [meets_congr hstepModels.workingDir, placeOf_congr hstepModels.workingDir] at hstepServices
  simp only [placeOf_congr hworking] at hstepLoose hput
  exact ⟨hbringsModels, hstepModels, hbringsServices, hstepServices,
    hstepLoose.mono (fun _ => False.elim) fun _ => id, hput, hcount⟩

namespace CopySteps

variable {models services loose : Nat} {first second copied : FileTree}
variable (hsteps : CopySteps generatedDir moduleDir models services loose before first second copied)

include hsteps

/-- The two directories. -/
theorem dirs : ImportStep generatedDir (before.Meets moduleDir) (fun place =>
    before.placeOf (Path.join moduleDir "model") <+: place ∨
      before.placeOf (Path.join moduleDir "services") <+: place) before second :=
  (hsteps.stepModels.mono (fun _ => id) fun _ => Or.inl).trans
    (hsteps.stepServices.mono (fun _ => id) fun _ => Or.inr)

theorem step :
    ImportStep generatedDir (before.Meets moduleDir) (Target moduleDir before) before copied :=
  (hsteps.dirs.mono (fun _ => id) fun _ => Or.imp_right Or.inl).trans
    (hsteps.stepLoose.mono (fun _ => id) fun _ => Or.inr ∘ Or.inr)

theorem moved (hbefore : before.Sound) (hapart : before.ApartAt generatedDir moduleDir) :
    Moved generatedDir moduleDir before copied := by
  have hmodel : Path.IsSegment "model" := by decide
  have hservice : Path.IsSegment "services" := by decide
  have hnotLoose {name : Text} (hname : Path.IsSegment name)
      (hne : ∀ other ∈ looseFiles, other ≠ name) (names : List Text) :
      ¬ ∃ other ∈ looseFiles, before.placeOf (Path.join moduleDir name) ++ names =
        before.placeOf (Path.join moduleDir other) := by
    rintro ⟨other, hother, heq⟩
    exact not_inside_of_ne hname (looseFiles_apart other hother).1 (hne other hother).symm before moduleDir
      names (heq.symm ▸ List.prefix_rfl)
  refine ⟨fun names => ?_, fun names => Or.inl ?_, fun name hname => ?_⟩
  · refine LaidIn.later (LaidIn.later (hsteps.bringsModels.inside names) hsteps.stepServices ?_)
      hsteps.stepLoose ?_
    · exact not_inside_of_ne hmodel hservice (by decide) before moduleDir names
    · exact hnotLoose hmodel (fun other hother => (looseFiles_apart other hother).2.1) names
  · refine LaidIn.later (laidIn_of_brings hbefore hsteps.stepModels (not_inside_of_apart hapart hmodel)
      (not_inside_of_ne hservice hmodel (by decide) before moduleDir) (by decide)
      hsteps.bringsServices names) hsteps.stepLoose ?_
    exact hnotLoose hservice (fun other hother => (looseFiles_apart other hother).2.2) names
  · obtain ⟨hordinary, hnotModel, hnotService⟩ := looseFiles_apart name hname
    rw [hsteps.putLoose name hname, hsteps.dirs.regularAt?_eq hbefore (fun names => not_or.mpr
      ⟨not_inside_of_apart hapart hmodel names, not_inside_of_apart hapart hservice names⟩) hordinary]
    refine OrCreated.or_right _ (hsteps.dirs.entries _ ?_)
    rw [← List.append_nil (before.placeOf (Path.join moduleDir name))]
    exact not_or.mpr ⟨not_inside_of_ne hordinary hmodel hnotModel _ _ _,
      not_inside_of_ne hordinary hservice hnotService _ _ _⟩

theorem count_eq (hbefore : before.Sound) (hapart : before.ApartAt generatedDir moduleDir) :
    models + services + loose = offeredCount generatedDir before := by
  have hmodel (names : List Text) :=
    @not_inside_of_apart _ _ before "model" hapart (by decide) names
  have hservice (names : List Text) :=
    @not_inside_of_apart _ _ before "services" hapart (by decide) names
  rw [offeredCount, hsteps.bringsModels.count, hsteps.bringsServices.count, hsteps.countLoose,
    hsteps.stepModels.length_filesIn_eq hbefore hmodel (by decide)]
  congr 1
  exact List.countP_congr fun name hname => by
    rw [hsteps.dirs.isFile_eq hbefore (fun names => not_or.mpr ⟨hmodel names, hservice names⟩)
      (looseFiles_apart name hname).1]

end CopySteps

theorem placeOf_indexPath (moduleDir : Path) (tree : FileTree) :
    tree.placeOf (indexPath moduleDir) = tree.placeOf (Path.join moduleDir "services") ++ [indexFile] :=
  placeOf_join (by decide) _ _

section

variable {middle last : FileTree} (hworking : middle.workingDir = before.workingDir)
variable (hremoves : Confined (.removesFile middle (indexPath moduleDir)) middle last)

include hworking hremoves

/-- No more than the index is removed. -/
theorem entry?_eq_of_removesIndex
    (hne : place ≠ before.placeOf (Path.join moduleDir "services") ++ [indexFile]) :
    last.entry? place = middle.entry? place := by
  refine hremoves.entry?_eq fun hremove => hne (hremove.1.trans ?_)
  rw [placeOf_indexPath, placeOf_congr hworking]

theorem Moved.withoutIndex (hmoved : Moved generatedDir moduleDir before middle) :
    Moved generatedDir moduleDir before last := by
  have hother {name : Text} (hname : Path.IsSegment name) (hne : name ≠ "services") (names : List Text) :
      last.entry? (before.placeOf (Path.join moduleDir name) ++ names) =
        middle.entry? (before.placeOf (Path.join moduleDir name) ++ names) := by
    refine entry?_eq_of_removesIndex hworking hremoves fun heq => ?_
    exact not_inside_of_ne hname (by decide) hne before moduleDir names (heq ▸ List.prefix_append _ _)
  refine ⟨fun names => ?_, fun names => ?_, fun name hname => ?_⟩
  · rw [LaidIn, hother (by decide) (by decide)]
    exact hmoved.models names
  · have hentry := hremoves.entries (before.placeOf (Path.join moduleDir "services") ++ names)
    rcases hmoved.services names with hlaid | ⟨rfl, hfile, hnone⟩
    · rcases hentry with hkept | ⟨hplace, ⟨content, hfile⟩, hnone⟩
      · rw [LaidIn, hkept]
        exact Or.inl hlaid
      · rw [placeOf_indexPath, placeOf_congr hworking] at hplace
        obtain rfl := List.append_cancel_left hplace
        exact Or.inr ⟨rfl, ⟨content, hlaid.eq_file_iff.mp hfile⟩, hnone⟩
    · exact Or.inr ⟨rfl, hfile, hentry.elim (·.trans hnone) (·.2.2)⟩
  · obtain ⟨hordinary, -, hne⟩ := looseFiles_apart name hname
    have hkept := hother hordinary hne []
    rw [List.append_nil] at hkept
    rw [hkept]
    exact hmoved.loose name hname

end

/-- What was offered is in the module's directory, nothing else changed, and no index is left. -/
structure BroughtIn (generatedDir moduleDir : Path) (before after : FileTree) : Prop where
  sound : after.Sound
  workingDir : after.workingDir = before.workingDir
  moved : Moved generatedDir moduleDir before after
  others : ∀ place, ¬ Target moduleDir before place →
    OrCreated (before.Meets moduleDir place) (before.entry? place) (after.entry? place)
  isDir : after.isDir generatedDir = before.isDir generatedDir
  index : after.isFile (indexPath moduleDir) = false

theorem broughtIn_of_bring (hsound : world.tree.Sound) (hapart : world.tree.ApartAt generatedDir moduleDir)
    (hok : bring generatedDir moduleDir world = .ok count after) :
    BroughtIn generatedDir moduleDir world.tree after.tree ∧
      count = offeredCount generatedDir world.tree := by
  obtain ⟨models, first, hmodels, hok⟩ := Run.bind_eq_ok_iff.mp hok
  obtain ⟨services, second, hservices, hok⟩ := Run.bind_eq_ok_iff.mp hok
  obtain ⟨loose, copied, hloose, hok⟩ := Run.bind_eq_ok_iff.mp hok
  obtain ⟨removed, indexed, hindex, hok⟩ := Run.bind_eq_ok_iff.mp hok
  obtain ⟨rfl, rfl⟩ := Run.pure_eq_ok_iff.mp hok
  have hsteps := copySteps_of_copies hsound hapart hmodels hservices hloose
  have hstep := hsteps.step
  have hindexed : indexed.tree.Sound :=
    (Run.keeps_removeFileIfThere (Change.keeps_sound_removeFile _)).of_ok hindex hstep.sound
  have hremoves := Run.removeFileIfThere_ok hstep.sound.plain hindex
  have hdirs : SameDirs copied.tree indexed.tree := by
    refine ⟨hremoves.workingDir, fun place => ?_⟩
    rcases hremoves.entries place with hsame | ⟨-, ⟨content, hfile⟩, hnone⟩
    · rw [hsame]
    · simp [hfile, hnone]
  refine ⟨⟨hindexed, hremoves.workingDir.trans hstep.workingDir, ?_, fun place hoff => ?_, ?_, ?_⟩,
    hsteps.count_eq hsound hapart⟩
  · exact (hsteps.moved hsound hapart).withoutIndex hstep.workingDir hremoves
  · have hne : place ≠ world.tree.placeOf (Path.join moduleDir "services") ++ [indexFile] := by
      rintro rfl
      exact hoff (Or.inr (Or.inl (List.prefix_append _ _)))
    rw [entry?_eq_of_removesIndex hstep.workingDir hremoves hne]
    exact hstep.entries place hoff
  · rw [hdirs.isDir_eq hstep.sound hindexed, hstep.isDir_eq hsound]
  · exact Run.isFile_of_removeFileIfThere hstep.sound.plain (by decide) hindex

/-! ## Before the removal nothing is lost -/

theorem keeps_bring {holds : FileTree → Prop}
    (hmodels : (Run.copyDir (Path.join generatedDir "model") (Path.join moduleDir "model")).Keeps holds)
    (hservices : (Run.copyDir (Path.join generatedDir "api") (Path.join moduleDir "services")).Keeps holds)
    (hloose : ∀ name ∈ looseFiles,
      (Run.copyFileIfThere (Path.join generatedDir name) (Path.join moduleDir name)).Keeps holds)
    (hindex : (Run.removeFileIfThere (indexPath moduleDir)).Keeps holds) :
    (bring generatedDir moduleDir).Keeps holds := by
  have hcopies (names : List Text) (hnames : ∀ name ∈ names,
      (Run.copyFileIfThere (Path.join generatedDir name) (Path.join moduleDir name)).Keeps holds) :
      (copyLoose generatedDir moduleDir names).Keeps holds := by
    induction names with
    | nil => exact Run.keeps_pure _
    | cons name names ih =>
        obtain ⟨hname, hrest⟩ := List.forall_mem_cons.mp hnames
        exact hname.bind fun _ => (ih hrest).bind fun _ => Run.keeps_pure _
  exact hmodels.bind fun _ => hservices.bind fun _ => (hcopies _ hloose).bind fun _ =>
    hindex.bind fun _ => Run.keeps_pure _

/-- Up to the removal, and where it fails on the way, an import leaves what is in the generator's
directory. -/
theorem bring_spares (hplain : world.tree.Plain) (hapart : world.tree.ApartAt generatedDir moduleDir)
    (names : List Text) :
    OrCreated (world.tree.Meets moduleDir (world.tree.placeOf generatedDir ++ names))
      (world.tree.entry? (world.tree.placeOf generatedDir ++ names))
      ((lastState (bring generatedDir moduleDir world)).tree.entry?
        (world.tree.placeOf generatedDir ++ names)) := by
  have htrans := Permit.transitive_opens (world.tree.Meets moduleDir) (world.tree.placeOf generatedDir <+: ·)
  have hoff {place : Location} (hmodule : world.tree.placeOf moduleDir <+: place) :
      ¬ world.tree.placeOf generatedDir <+: place := by
    rintro ⟨below, rfl⟩
    obtain ⟨more, heq⟩ := hmodule
    exact hapart below more heq.symm
  have hkept : Change.KeptBelow moduleDir (Confined
      (.opens (world.tree.Meets moduleDir) (world.tree.placeOf generatedDir <+: ·)) world.tree) := by
    refine Change.keptBelow_confined htrans ?_
      fun place _ _ hmodule _ _ hinside => absurd hinside (hoff hmodule)
    rintro current - place - (hpasses | hmodule) hinside
    · exact ⟨Or.inl hpasses, rfl, rfl⟩
    · exact absurd hinside (hoff hmodule)
  have hbelow {name : Text} (hname : Path.IsSegment name) :
      Path.Below moduleDir [name] (Path.join moduleDir name) := (Path.Below.refl moduleDir).join hname
  have hbring : (bring generatedDir moduleDir).Keeps (Confined
      (.opens (world.tree.Meets moduleDir) (world.tree.placeOf generatedDir <+: ·)) world.tree) := by
    refine keeps_bring (hkept.copyDir (fun _ => Confined.plain) (hbelow (by decide)) (by simp) _)
      (hkept.copyDir (fun _ => Confined.plain) (hbelow (by decide)) (by simp) _) (fun name hname => ?_) ?_
    · exact hkept.copyFileIfThere (hbelow (looseFiles_apart name hname).1) (by simp) _
    · refine Run.keeps_removeFileIfThere (Change.confined_of_removesFile htrans fun _ hinside => ?_)
      rw [placeOf_indexPath, placeOf_join (by decide), List.append_assoc] at hinside
      exact absurd hinside (hoff (List.prefix_append _ _))
  exact ((hbring world (.refl hplain)).entries _).imp_right fun hopens => hopens (List.prefix_append _ _)

/-! ## The import -/

/-- The generator's directory is gone, what it offered is in the module's directory, no index is left there,
and nothing else changed. -/
structure Fetched (generatedDir moduleDir : Path) (before after : FileTree) : Prop where
  isDir : after.isDir generatedDir = false
  cleared : before.isDir generatedDir = true → ∀ names, names ≠ [] →
    after.entry? (before.placeOf generatedDir ++ names) = none
  moved : Moved generatedDir moduleDir before after
  index : after.isFile (indexPath moduleDir) = false
  others : ∀ place, ¬ Target moduleDir before place →
    ¬(before.isDir generatedDir = true ∧ before.placeOf generatedDir <+: place) →
    OrCreated (before.Meets moduleDir place) (before.entry? place) (after.entry? place)

theorem fetched_of_removal {brought : World} {removed : Bool} (hapart : before.ApartAt generatedDir moduleDir)
    (hbrought : BroughtIn generatedDir moduleDir before brought.tree)
    (hremove : Run.removeDirAllIfThere generatedDir brought = .ok removed after) :
    Fetched generatedDir moduleDir before after.tree := by
  have hplain := hbrought.sound.plain
  obtain ⟨hremoves, hcleared⟩ := Run.removeDirAllIfThere_ok hplain hremove
  have hplace := placeOf_congr hbrought.workingDir
  have hsame {place : Location}
      (hoff : ¬(before.isDir generatedDir = true ∧ before.placeOf generatedDir <+: place)) :
      after.tree.entry? place = brought.tree.entry? place := by
    by_cases hdir : before.isDir generatedDir = true
    · exact hremoves.entry?_eq fun hremove => hoff ⟨hdir, hplace generatedDir ▸ hremove.1⟩
    · rw [← hbrought.isDir] at hdir
      rw [Run.removeDirAllIfThere_of_not_isDir hdir] at hremove
      cases hremove
      rfl
  have hmodule {name : Text} (hname : Path.IsSegment name) (names : List Text) :
      after.tree.entry? (before.placeOf (Path.join moduleDir name) ++ names) =
        brought.tree.entry? (before.placeOf (Path.join moduleDir name) ++ names) := by
    refine hsame fun ⟨_, below, heq⟩ => ?_
    exact not_inside_of_apart hapart hname below (heq ▸ List.prefix_append _ _)
  refine ⟨Run.isDir_of_removeDirAllIfThere hplain hremove, fun hdir names hne => ?_,
    ⟨fun names => ?_, fun names => ?_, fun name hname => ?_⟩, ?_, fun place htarget hoff => ?_⟩
  · exact hcleared (hbrought.isDir.trans hdir) _ (hplace generatedDir ▸ List.prefix_append _ _)
      (by simp [hplace, hne])
  · rw [LaidIn, hmodule (by decide)]
    exact hbrought.moved.models names
  · rw [LaidIn, hmodule (by decide), hmodule (by decide)]
    exact hbrought.moved.services names
  · have hloose := hmodule (looseFiles_apart name hname).1 []
    rw [List.append_nil] at hloose
    rw [hloose]
    exact hbrought.moved.loose name hname
  · -- an index that is left would have been there before the removal
    rw [← Bool.not_eq_true]
    intro hfile
    obtain ⟨location, content, hfind⟩ := isFile_iff.mp hfile
    have hless : Extends after.tree brought.tree := hremoves.extended fun _ _ _ hremove => hremove.2.2
    have hstill := isFile_iff.mpr ⟨location, content, find_extends hless hfind⟩
    exact absurd (hstill.symm.trans hbrought.index) (by simp)
  · rw [hsame hoff]
    exact hbrought.others place htarget

/-- An import that succeeds lays what is offered over the module's directory, counts the files of the offer,
and leaves no directory behind. One that fails leaves the generator's directory as it was, unless it had
nothing to do any more but to remove it. -/
theorem fetch_law (hsound : world.tree.Sound)
    (hgenerated : ¬ world.tree.placeOf generatedDir <+: world.tree.placeOf moduleDir)
    (hmodule : ¬ world.tree.placeOf moduleDir <+: world.tree.placeOf generatedDir) :
    (∀ imported after, fetch generatedDir moduleDir world = .ok imported after →
      imported = ⟨Path.join moduleDir "services", Path.join moduleDir "model",
        offeredCount generatedDir world.tree⟩ ∧
      Fetched generatedDir moduleDir world.tree after.tree) ∧
    ∀ failure after, fetch generatedDir moduleDir world = .error failure after →
      (bring generatedDir moduleDir world = .error failure after ∧
        ∀ names, OrCreated (world.tree.Meets moduleDir (world.tree.placeOf generatedDir ++ names))
          (world.tree.entry? (world.tree.placeOf generatedDir ++ names))
          (after.tree.entry? (world.tree.placeOf generatedDir ++ names))) ∨
      ∃ count brought, bring generatedDir moduleDir world = .ok count brought ∧
        Run.removeDirAllIfThere generatedDir brought = .error failure after := by
  have hapart := apartAt_of_not_prefix hgenerated hmodule
  rw [fetch_eq]
  refine ⟨fun imported after hok => ?_, fun failure after herror => ?_⟩
  · obtain ⟨count, brought, hbring, hok⟩ := Run.bind_eq_ok_iff.mp hok
    obtain ⟨removed, last, hremove, hok⟩ := Run.bind_eq_ok_iff.mp hok
    cases hok
    obtain ⟨hbrought, rfl⟩ := broughtIn_of_bring hsound hapart hbring
    have hfetched := fetched_of_removal hapart hbrought hremove
    exact ⟨rfl, hfetched⟩
  · rcases Run.bind_eq_error_iff.mp herror with hbring | ⟨count, brought, hbring, herror⟩
    · have hspares := bring_spares hsound.plain hapart
      rw [hbring] at hspares
      exact Or.inl ⟨hbring, hspares⟩
    · rcases Run.bind_eq_error_iff.mp herror with hremove | ⟨removed, last, -, herror⟩
      · exact Or.inr ⟨count, brought, hbring, hremove⟩
      · cases herror

/-- Sources with one file of each kind, and a module that holds a model already. -/
def generatedSources : FileTree :=
  ⟨[], [(["m"], .dir), (["m", "model"], .dir), (["m", "model", "old.ts"], .file (.text "old")),
    (["t"], .dir), (["t", "api"], .dir), (["t", "api", "api.ts"], .file (.text "index")),
    (["t", "model"], .dir), (["t", "model", "pet.ts"], .file (.text "pet")),
    (["t", "variables.ts"], .file (.text "variables"))]⟩

theorem fetch_law_generated : ∃ after,
    fetch "t" "m" (.ofTree generatedSources) = .ok ⟨"m/services", "m/model", 3⟩ after ∧
      Fetched "t" "m" generatedSources after.tree := by
  have hends : Run.endsIn (fun imported _ => imported = ⟨"m/services", "m/model", 3⟩)
      (fetch "t" "m" (.ofTree generatedSources)) = true := by
    decide +kernel
  obtain ⟨imported, after, hok, himported⟩ := Run.exists_ok_of_endsIn hends
  obtain rfl := of_decide_eq_true himported
  have hlaw := @fetch_law "t" "m" (.ofTree generatedSources) (by decide +kernel) (by decide +kernel)
    (by decide +kernel)
  exact ⟨after, hok, (hlaw.1 _ after hok).2⟩

/-- Sources with a file in whose place the module holds a directory. -/
def clashingSources : FileTree :=
  ⟨[], [(["m"], .dir), (["m", "model"], .dir), (["m", "model", "x"], .dir),
    (["m", "model", "x", "y"], .file (.text "2")), (["t"], .dir), (["t", "model"], .dir),
    (["t", "model", "x"], .file (.text "1"))]⟩

/-- A path to the module that leads through the generator's directory changes it, although the import
fails. -/
theorem exists_changed_generated : clashingSources.Sound ∧
    ¬ clashingSources.placeOf "t" <+: clashingSources.placeOf "./t/new/../../m" ∧
    ¬ clashingSources.placeOf "./t/new/../../m" <+: clashingSources.placeOf "t" ∧
    ∃ failure after, fetch "t" "./t/new/../../m" (.ofTree clashingSources) = .error failure after ∧
      bring "t" "./t/new/../../m" (.ofTree clashingSources) = .error failure after ∧
      ∃ names, after.tree.entry? (clashingSources.placeOf "t" ++ names) ≠
        clashingSources.entry? (clashingSources.placeOf "t" ++ names) := by
  have hfails : Run.isOk (bring "t" "./t/new/../../m" (.ofTree clashingSources)) = false := by decide +kernel
  have hnew : (lastState (bring "t" "./t/new/../../m" (.ofTree clashingSources))).tree.entry?
      (clashingSources.placeOf "t" ++ ["new".toList]) = some .dir := by
    decide +kernel
  obtain ⟨failure, after, hbring⟩ := Run.exists_error_of_isOk hfails
  rw [hbring] at hnew
  refine ⟨by decide +kernel, by decide +kernel, by decide +kernel, failure, after, ?_, hbring, ["new"], ?_⟩
  · rw [fetch_eq, Run.bind_of_error hbring]
  · exact hnew ▸ by decide +kernel

end ImportedSources

end ServiceScaffold
