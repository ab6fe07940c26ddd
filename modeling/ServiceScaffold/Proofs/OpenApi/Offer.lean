import ServiceScaffold.Proofs.Run.Overlay

/-! # What a directory offers

A directory offers the trees of its own directories and its own files. While they are copied into another
directory it offers the same, apart from directories that are created on the way to the target, because every
step changes no more than its part of the target, and none without a way to the directory.
-/

namespace ServiceScaffold

/-- At certain places nothing happens but that a directory is created on a way. -/
def Permit.opens (way kept : Location → Prop) : Permit := fun place old new =>
  kept place → way place ∧ old = none ∧ new = some .dir

theorem Permit.transitive_opens (way kept : Location → Prop) : (opens way kept).Transitive := by
  intro place first second third hfirst hsecond hkept
  obtain ⟨-, -, hdir⟩ := hfirst hkept
  obtain ⟨-, hnone, -⟩ := hsecond hkept
  cases hdir.symm.trans hnone

namespace FileTree

variable {tree before middle after : FileTree} {way ways part parts : Location → Prop} {dir name path : Path}
variable {place : Location} {names : List Text}

section

variable {created : Prop} {first second third found other : Option Entry} {content : Content}

theorem OrCreated.trans (hfirst : OrCreated created first second) (hsecond : OrCreated created second third) :
    OrCreated created first third := by
  rcases hfirst with rfl | ⟨hcreated, hnone, hdir⟩
  · exact hsecond
  · rw [hdir] at hsecond
    exact Or.inr ⟨hcreated, hnone, hsecond.eq_some⟩

theorem OrCreated.eq_file_iff (hfound : OrCreated created first second) :
    second = some (.file content) ↔ first = some (.file content) := by
  rcases hfound with rfl | ⟨-, rfl, rfl⟩
  · rfl
  · simp

/-- Of two offers the first decides. One that was created may decide too, unless it comes before a file. -/
theorem OrCreated.or (hfirst : OrCreated created first second) (hsecond : OrCreated created found other)
    (hclash : ¬ Clash second other) (hlink : ∀ target, other ≠ some (.link target)) :
    OrCreated created (first.or found) (second.or other) := by
  rcases hfirst with rfl | ⟨hcreated, rfl, rfl⟩
  · cases second with
    | none => exact hsecond
    | some entry => exact Or.inl rfl
  · rcases hsecond with rfl | ⟨-, rfl, rfl⟩
    · cases other with
      | none => exact Or.inr ⟨hcreated, rfl, rfl⟩
      | some entry =>
          cases entry with
          | dir => exact Or.inl rfl
          | file content => exact absurd trivial hclash
          | link target => exact absurd rfl (hlink target)
    · exact Or.inr ⟨hcreated, rfl, rfl⟩

theorem OrCreated.or_right (first : Option Entry) (hfound : OrCreated created found other) :
    OrCreated created (first.or found) (first.or other) := by
  cases first with
  | none => exact hfound
  | some entry => exact Or.inl rfl

end

/-! ## What changed -/

/-- The path leads past the place, or to it. -/
def Meets (tree : FileTree) (path : Path) (place : Location) : Prop :=
  tree.Passes path place ∨ place = tree.placeOf path

theorem meets_congr (hworking : after.workingDir = before.workingDir) (path : Path) :
    after.Meets path = before.Meets path := by
  funext place
  rw [Meets, Meets, passes_congr hworking, placeOf_congr hworking]

/-- On the way to a name in a directory everything but the name is on the way to the directory. -/
theorem Meets.of_passes_join (hname : Path.IsSegment name) (hpasses : tree.Passes (Path.join dir name) place)
    (hne : place ≠ tree.placeOf (Path.join dir name)) : tree.Meets dir place := by
  rcases hpasses.of_below ((Path.Below.refl dir).join hname) with hpasses | ⟨front, hfront, rfl⟩
  · exact Or.inl hpasses
  · refine Or.inr ?_
    rw [List.nil_append, List.prefix_cons_iff] at hfront
    rcases hfront with rfl | ⟨rest, rfl, hrest⟩
    · rw [List.append_nil]
    · rw [List.prefix_nil.mp hrest, placeOf_join hname] at hne
      exact absurd rfl hne

/-- Nothing changed outside a part of the tree, apart from directories that were created on a way. -/
structure ChangedIn (way part : Location → Prop) (before after : FileTree) : Prop where
  workingDir : after.workingDir = before.workingDir
  dirs : ∀ place, before.entry? place = some .dir → after.entry? place = some .dir
  entries : ∀ place, ¬ part place → OrCreated (way place) (before.entry? place) (after.entry? place)

/-- A step of an import leaves a sound tree, changes no more than its part, and does nothing if there is no
way to the directory that is imported. -/
structure ImportStep (dir : Path) (way part : Location → Prop) (before after : FileTree) : Prop
    extends ChangedIn way part before after where
  sound : after.Sound
  idle : ¬ before.Passable (before.startOf dir) dir.steps → after = before

theorem ImportStep.refl (hsound : tree.Sound) : ImportStep dir way part tree tree :=
  ⟨⟨rfl, fun _ => id, fun _ _ => Or.inl rfl⟩, hsound, fun _ => rfl⟩

theorem ImportStep.trans (hfirst : ImportStep dir way part before middle)
    (hsecond : ImportStep dir way part middle after) : ImportStep dir way part before after where
  workingDir := hsecond.workingDir.trans hfirst.workingDir
  dirs := fun place => hsecond.dirs place ∘ hfirst.dirs place
  entries := fun place hoff => (hfirst.entries place hoff).trans (hsecond.entries place hoff)
  sound := hsecond.sound
  idle := fun hstuck => by
    obtain rfl := hfirst.idle hstuck
    exact hsecond.idle hstuck

theorem ImportStep.mono (hstep : ImportStep dir way part before after)
    (hway : ∀ place, way place → ways place) (hpart : ∀ place, part place → parts place) :
    ImportStep dir ways parts before after :=
  ⟨⟨hstep.workingDir, hstep.dirs, fun place hoff =>
    (hstep.entries place (mt (hpart place) hoff)).mono (hway place)⟩, hstep.sound, hstep.idle⟩

theorem ChangedIn.passable (hchanged : ChangedIn way part before after)
    (hpassable : before.Passable (before.startOf dir) dir.steps) :
    after.Passable (after.startOf dir) dir.steps := by
  rw [startOf_congr hchanged.workingDir]
  exact hpassable.mono hchanged.dirs

/-- The directory is one before and after the step, or neither. -/
theorem ImportStep.isDir_eq (hstep : ImportStep dir way part before after) (hbefore : before.Sound) :
    after.isDir dir = before.isDir dir := by
  rw [Bool.eq_iff_iff, hstep.sound.isDir_iff, hbefore.isDir_iff]
  refine and_congr_right fun _ => ⟨fun hpassable => ?_, hstep.passable⟩
  by_contra hstuck
  rw [hstep.idle hstuck] at hpassable
  exact hstuck hpassable

/-! ## What is offered -/

/-- What stands at a place in a directory, if the path leads to a directory. -/
def entryIn? (tree : FileTree) (dir : Path) (names : List Text) : Option Entry :=
  if tree.isDir dir then tree.entry? (tree.placeOf dir ++ names) else none

/-- The regular file that a path leads to, if it leads to one. -/
def regularAt? (tree : FileTree) (path : Path) : Option Entry :=
  if tree.isFile path then tree.entry? (tree.placeOf path) else none

/-- The regular files inside a directory, if the path leads to a directory. -/
def filesIn (tree : FileTree) (dir : Path) : List Location :=
  if tree.isDir dir then tree.regularFiles (tree.placeOf dir) else []

/-- What is at a place in the target once the source is laid over it. -/
def overlaid? (tree : FileTree) (source target : Path) (names : List Text) : Option Entry :=
  (tree.entryIn? source names).or (tree.entry? (tree.placeOf target ++ names))

theorem Sound.mem_filesIn_iff (hsound : tree.Sound) :
    names ∈ tree.filesIn dir ↔ ∃ content, tree.entryIn? dir names = some (.file content) := by
  unfold filesIn entryIn?
  split
  next hdir =>
    rw [hsound.mem_regularFiles_iff, and_iff_right_iff_imp]
    rintro ⟨content, hfile⟩ rfl
    rw [List.append_nil, hsound.entry?_of_passable (hsound.isDir_iff.mp hdir).2] at hfile
    cases hfile
  next => simp

theorem Sound.nodup_filesIn (hsound : tree.Sound) (dir : Path) : (tree.filesIn dir).Nodup := by
  unfold filesIn
  split
  · exact hsound.nodup_regularFiles _
  · exact List.nodup_nil

section

variable (hstep : ImportStep dir way part before after) (hbefore : before.Sound)
variable (hapart : ∀ names, ¬ part (before.placeOf dir ++ names)) (hname : Path.IsSegment name)

include hstep hbefore hapart hname

/-- What the directory offers in one of its directories stays, apart from directories that were created. -/
theorem ImportStep.orCreated_entryIn? (names : List Text) :
    OrCreated (way (before.placeOf (Path.join dir name) ++ names))
      (before.entryIn? (Path.join dir name) names) (after.entryIn? (Path.join dir name) names) := by
  by_cases hdirs : before.Passable (before.startOf dir) dir.steps
  · have hplace : after.placeOf dir = before.placeOf dir := placeOf_congr hstep.workingDir dir
    have hheld := hstep.entries _ (hapart [name])
    have hentry := hstep.entries _ (hapart ([name] ++ names))
    rw [← List.append_assoc] at hentry
    unfold FileTree.entryIn?
    rw [placeOf_join hname, placeOf_join hname, hplace]
    by_cases hdir : before.isDir (Path.join dir name) = true
    · obtain ⟨haccept, -, hshort, hheldDir⟩ := (isDir_join_iff hname hbefore.plain.linkFree).mp hdir
      have hstill : after.isDir (Path.join dir name) = true :=
        (isDir_join_iff hname hstep.sound.plain.linkFree).mpr
          ⟨haccept, hstep.passable hdirs, hshort, hplace ▸ hstep.dirs _ hheldDir⟩
      rw [if_pos hdir, if_pos hstill]
      exact hentry
    · rw [if_neg hdir]
      split
      next hnew =>
        -- the directory was created, and where it was created nothing was
        obtain ⟨haccept, -, hshort, hnewDir⟩ := (isDir_join_iff hname hstep.sound.plain.linkFree).mp hnew
        have hvacant : before.entry? (before.placeOf dir ++ [name]) = none := by
          rcases hheld with hsame | ⟨-, hnone, -⟩
          · rw [hplace, hsame] at hnewDir
            refine absurd ((isDir_join_iff hname hbefore.plain.linkFree).mpr ?_) hdir
            exact ⟨haccept, hdirs, hshort, hnewDir⟩
          · exact hnone
        rwa [hbefore.wellFormed.entry?_eq_none hvacant] at hentry
      next => exact Or.inl rfl
  · rw [hstep.idle hdirs]
    exact Or.inl rfl

theorem ImportStep.length_filesIn_eq :
    (after.filesIn (Path.join dir name)).length = (before.filesIn (Path.join dir name)).length := by
  refine ((List.perm_ext_iff_of_nodup (hstep.sound.nodup_filesIn _) (hbefore.nodup_filesIn _)).mpr
    fun names => ?_).length_eq
  simp only [hstep.sound.mem_filesIn_iff, hbefore.mem_filesIn_iff,
    (hstep.orCreated_entryIn? hbefore hapart hname names).eq_file_iff]

/-- The loose files that the directory offers stay. -/
theorem ImportStep.isFile_eq : after.isFile (Path.join dir name) = before.isFile (Path.join dir name) := by
  by_cases hdirs : before.Passable (before.startOf dir) dir.steps
  · rw [Bool.eq_iff_iff, isFile_join_iff hname hbefore.plain.linkFree,
      isFile_join_iff hname hstep.sound.plain.linkFree, placeOf_congr hstep.workingDir]
    simp only [hdirs, hstep.passable hdirs, (hstep.entries _ (hapart [name])).eq_file_iff]
  · rw [hstep.idle hdirs]

theorem ImportStep.regularAt?_eq :
    after.regularAt? (Path.join dir name) = before.regularAt? (Path.join dir name) := by
  unfold FileTree.regularAt?
  rw [hstep.isFile_eq hbefore hapart hname, placeOf_congr hstep.workingDir]
  split
  next hfile =>
    obtain ⟨-, -, -, content, hentry⟩ := (isFile_join_iff hname hbefore.plain.linkFree).mp hfile
    have hheld := hstep.entries _ (hapart [name])
    rw [hentry] at hheld
    rw [placeOf_join hname, hentry, hheld.eq_some]
  next => rfl

end

/-- A directory was copied, if there was one. -/
structure Brings (way : Location → Prop) (source target : Path) (count : Nat) (before after : FileTree) : Prop
    extends ChangedIn way (before.placeOf target <+: ·) before after where
  sound : after.Sound
  inside : ∀ names, OrCreated (way (before.placeOf target ++ names) ∨ way (before.placeOf source ++ names))
    (before.overlaid? source target names) (after.entry? (before.placeOf target ++ names))
  noClash : ∀ names, ¬ Clash (before.entryIn? source names) (before.entry? (before.placeOf target ++ names))
  count : count = (before.filesIn source).length

end FileTree

end ServiceScaffold
