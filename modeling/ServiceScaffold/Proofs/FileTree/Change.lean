import ServiceScaffold.Proofs.FileTree.Confined
import ServiceScaffold.Proofs.Run.Keeps

/-! # Changes of plain trees

Each operation is told by what it permits: directories are created at vacancies on the way to a path
only, a file is written or removed at the place of its path only, and a directory is removed with no
more than what it holds. No operation makes a symbolic link or a name that is not ordinary, so every
one of them leaves a plain tree plain.
-/

namespace ServiceScaffold

namespace FileTree

variable {tree before after : FileTree} {permits : Permit}

/-- The second tree has everything that the first one has. -/
structure Extends (before after : FileTree) : Prop where
  workingDir : after.workingDir = before.workingDir
  entries : ∀ place entry, before.entry? place = some entry → after.entry? place = some entry

theorem Extends.refl (tree : FileTree) : Extends tree tree := ⟨rfl, fun _ _ hentry => hentry⟩

theorem Extends.trans {first second third : FileTree} (hfirst : Extends first second)
    (hsecond : Extends second third) : Extends first third :=
  ⟨hsecond.workingDir.trans hfirst.workingDir, fun place entry hentry =>
    hsecond.entries place entry (hfirst.entries place entry hentry)⟩

theorem Extends.passable {path : Path} (hextends : Extends before after)
    (hpassable : before.Passable (before.startOf path) path.steps) :
    after.Passable (after.startOf path) path.steps := by
  rw [startOf_congr hextends.workingDir]
  exact hpassable.mono fun place => hextends.entries place .dir

/-- What changes at vacancies only keeps everything that was there. -/
theorem Confined.extends (hconfined : Confined permits before after)
    (hvacant : ∀ place old new, permits place old new → old = none) : Extends before after := by
  refine ⟨hconfined.workingDir, fun place entry hentry => ?_⟩
  rw [← hentry]
  refine hconfined.entry?_eq fun hpermits => ?_
  rw [hvacant place _ _ hpermits] at hentry
  cases hentry

/-- What changes by removals only has nothing that was not there before. -/
theorem Confined.extended (hconfined : Confined permits before after)
    (hgone : ∀ place old new, permits place old new → new = none) : Extends after before := by
  refine ⟨hconfined.workingDir.symm, fun place entry hentry => ?_⟩
  rw [← hentry]
  refine (hconfined.entry?_eq fun hpermits => ?_).symm
  rw [hgone place _ _ hpermits] at hentry
  cases hentry

/-- The second tree has everything that the first one has, except perhaps one directory. -/
structure Sheds (path : Path) (before after : FileTree) : Prop where
  workingDir : after.workingDir = before.workingDir
  entries : ∀ place entry, before.entry? place = some entry →
    (entry = .dir → place ≠ before.placeOf path) → after.entry? place = some entry

theorem Sheds.refl (path : Path) (tree : FileTree) : Sheds path tree tree :=
  ⟨rfl, fun _ _ hentry _ => hentry⟩

end FileTree

namespace Permit

/-- Directories may be created on the way to a path. -/
def creates (tree : FileTree) (path : Path) : Permit := fun place old new =>
  tree.Passes path place ∧ old = none ∧ new = some .dir

/-- A content may be written at the place of a path, unless a directory is there. -/
def writes (tree : FileTree) (path : Path) (content : Content) : Permit := fun place old new =>
  place = tree.placeOf path ∧ old ≠ some .dir ∧ new = some (.file content)

/-- Some content may be written at the place of a path, unless a directory is there. -/
def copies (tree : FileTree) (path : Path) : Permit := fun place old new =>
  ∃ content, writes tree path content place old new

/-- The file at the place of a path may be removed. -/
def removesFile (tree : FileTree) (path : Path) : Permit := fun place old new =>
  place = tree.placeOf path ∧ (∃ content, old = some (.file content)) ∧ new = none

/-- The directory at the place of a path may be removed if it holds nothing. -/
def removesDir (tree : FileTree) (path : Path) : Permit := fun place old new =>
  place = tree.placeOf path ∧ old = some .dir ∧ (∀ name, tree.entry? (place ++ [name]) = none) ∧
    new = none

/-- Whatever is inside the place of a path may be removed, and the directory there. -/
def removesAll (tree : FileTree) (path : Path) : Permit := fun place old new =>
  tree.placeOf path <+: place ∧ (place = tree.placeOf path → old = some .dir) ∧ new = none

theorem transitive_creates (tree : FileTree) (path : Path) : (creates tree path).Transitive := by
  rintro place first second third ⟨-, -, hdir⟩ ⟨-, hnone, -⟩
  rw [hdir] at hnone
  cases hnone

theorem transitive_writes (tree : FileTree) (path : Path) (content : Content) :
    (writes tree path content).Transitive :=
  fun _ _ _ _ hfirst hsecond => ⟨hfirst.1, hfirst.2.1, hsecond.2.2⟩

theorem transitive_copies (tree : FileTree) (path : Path) : (copies tree path).Transitive := by
  rintro place first second third ⟨-, hplace, hdir, -⟩ ⟨content, -, -, hnew⟩
  exact ⟨content, hplace, hdir, hnew⟩

theorem transitive_removesFile (tree : FileTree) (path : Path) : (removesFile tree path).Transitive :=
  fun _ _ _ _ hfirst hsecond => ⟨hfirst.1, hfirst.2.1, hsecond.2.2⟩

theorem transitive_removesAll (tree : FileTree) (path : Path) : (removesAll tree path).Transitive :=
  fun _ _ _ _ hfirst hsecond => ⟨hfirst.1, hfirst.2.1, hsecond.2.2⟩

end Permit

namespace Change

open FileTree

variable {tree next after : FileTree} {path upper : Path} {paths : List Path} {fault : Fault}

/-! ## Creating directories -/

theorem makeDir_error (hmake : makeDir path tree = .error fault after) : after = tree := by
  unfold makeDir at hmake
  split at hmake <;> cases hmake <;> rfl

/-- A directory is created where nothing was, links or not. -/
theorem keeps_makeDir {holds : FileTree → Prop} (hput : ∀ (tree : FileTree) location, holds tree →
      tree.entry? location = none → holds (tree.put location .dir)) (path : Path) :
    (makeDir path).Keeps holds := by
  intro tree htree
  unfold makeDir
  split
  · exact htree
  · exact htree
  next location hspot =>
    obtain ⟨found, hfound⟩ := exists_spotAt_of_spot hspot
    obtain ⟨rfl, hvacant⟩ := spotAt_eq_vacancy_iff.mp hfound.symm
    exact hput tree found htree hvacant

theorem makeDir_ok (hfree : tree.LinkFree) (hmake : makeDir path tree = .ok () next) :
    tree.entry? (tree.placeOf path) = none ∧ next = tree.put (tree.placeOf path) .dir := by
  unfold makeDir at hmake
  split at hmake
  · cases hmake
  · cases hmake
  next location hspot =>
    cases hmake
    have hvacant := spot_eq hfree (Or.inl rfl) hspot
    unfold spotAt at hvacant
    split at hvacant
    · cases hvacant
    next hentry =>
      cases hvacant
      exact ⟨hentry, rfl⟩

/-- A directory is created at the last name of its path, behind directories. -/
theorem steps_of_makeDir (hfree : tree.LinkFree) (hmake : makeDir path tree = .ok () next) :
    ∃ front name, path.steps = front ++ [Step.name name] ∧ tree.Passable (tree.startOf path) front ∧
      Text.byteLength name ≤ longestName ∧
      tree.placeOf path = front.foldl Location.follow (tree.startOf path) ++ [name] := by
  unfold makeDir at hmake
  split at hmake
  · cases hmake
  · cases hmake
  next location hspot =>
    obtain ⟨onLink, hwalk⟩ := exists_walk_eq tree .itself
    have hsteps := (spot_eq_ok_iff.mp hspot).2
    rw [hwalk, List.append_nil] at hsteps
    obtain ⟨front, name, hfront⟩ := last_of_walkWith_vacancy hfree hsteps
    rw [hfront, walkWith_append_name hfree] at hsteps
    refine ⟨front, name, hfront, hsteps.1, hsteps.2.1, ?_⟩
    rw [placeOf, hfront, List.foldl_append]
    rfl

theorem passes_of_makeDir (hfree : tree.LinkFree) (hmake : makeDir path tree = .ok () next) :
    tree.Passes path (tree.placeOf path) := by
  obtain ⟨front, name, hfront, -, -, hplace⟩ := steps_of_makeDir hfree hmake
  exact ⟨front, name, hfront ▸ List.prefix_rfl, hplace⟩

theorem confined_makeDir (hplain : tree.Plain) (honWay : Path.OnWay upper path)
    (hmake : makeDir upper tree = .ok () next) : Confined (.creates tree path) tree next := by
  obtain ⟨hvacant, hnext⟩ := makeDir_ok hplain.linkFree hmake
  rw [hnext]
  have hroot : tree.placeOf upper ≠ [] := by
    intro hroot
    rw [hroot] at hvacant
    cases hvacant
  refine (confined_put hplain (hplain.isSegment_of_mem_placeOf upper) hroot (by simp)).mono ?_
  rintro place old new ⟨rfl, rfl, rfl⟩
  exact ⟨(passes_of_makeDir hplain.linkFree hmake).of_onWay honWay, hvacant, rfl⟩

/-- What the creation of each directory keeps is kept by that of all, and it does not matter how far that
gets. -/
theorem keeps_makeLineage {holds : FileTree → Prop} (hpaths : ∀ upper ∈ paths, (makeDir upper).Keeps holds) :
    (makeLineage paths).Keeps holds := by
  induction paths with
  | nil => exact fun _ htree => htree
  | cons lower paths ih =>
      obtain ⟨hlower, hupper⟩ := List.forall_mem_cons.mp hpaths
      intro tree htree
      unfold makeLineage
      split
      next next hmake =>
        have hnext := hlower tree htree
        rwa [hmake] at hnext
      next =>
        -- the directories above come first, and then the path once more
        have habove := ih hupper tree htree
        split
        next middle hlineage =>
          rw [hlineage] at habove
          exact habove
        next middle hlineage =>
          rw [hlineage] at habove
          have hnext := hlower middle habove
          split
          next next hmake => rwa [hmake] at hnext
          next fault after hmake =>
            rw [hmake] at hnext
            split <;> exact hnext
      next => split <;> exact htree

theorem confined_makeLineage (hplain : tree.Plain) (hpaths : ∀ upper ∈ paths, Path.OnWay upper path) :
    Confined (.creates tree path) tree (lastState (makeLineage paths tree)) := by
  refine keeps_makeLineage (fun upper hupper current hconfined => ?_) tree (.refl hplain)
  cases hmake : makeDir upper current with
  | error fault after =>
      obtain rfl := makeDir_error hmake
      exact hconfined
  | ok value next =>
      refine hconfined.trans (Permit.transitive_creates tree path) ?_
      refine (confined_makeDir hconfined.plain (hpaths upper hupper) hmake).mono fun place old new hcreates => ?_
      exact ⟨(passes_congr hconfined.workingDir).mp hcreates.1, hcreates.2⟩

theorem confined_makeDirAll (hplain : tree.Plain) (path : Path) :
    Confined (.creates tree path) tree (lastState (makeDirAll path tree)) :=
  confined_makeLineage hplain fun _ => Path.onWay_of_mem_lineage

theorem extends_makeDirAll (hplain : tree.Plain) (path : Path) :
    (lastState (makeDirAll path tree)).Plain ∧ Extends tree (lastState (makeDirAll path tree)) :=
  have hconfined := confined_makeDirAll hplain path
  ⟨hconfined.plain, hconfined.extends fun _ _ _ hcreates => hcreates.2.1⟩

theorem keeps_makeDirAll (path : Path) : (makeDirAll path).Keeps Plain :=
  fun _ hplain => (confined_makeDirAll hplain path).plain

/-- A directory that was created is reached through directories. -/
theorem passable_of_makeDir (hplain : tree.Plain) (hmake : makeDir path tree = .ok () next) :
    next.Passable (next.startOf path) path.steps := by
  have hdirs := (confined_makeDir hplain (.refl path) hmake).extends fun _ _ _ hcreates => hcreates.2.1
  obtain ⟨-, hnext⟩ := makeDir_ok hplain.linkFree hmake
  obtain ⟨front, name, hfront, hfrontDirs, hlong, hplace⟩ := steps_of_makeDir hplain.linkFree hmake
  have hroot : tree.placeOf path ≠ [] := by simp [hplace]
  rw [startOf_congr hdirs.workingDir, hfront, passable_append]
  refine ⟨hfrontDirs.mono fun place => hdirs.entries place .dir, hlong, ?_, trivial⟩
  rw [hnext, ← hplace, entry?_put hroot, if_pos rfl]

/-- The first path of a lineage was created in the end, or it leads to a directory. -/
theorem makeLineage_ok (hmake : makeLineage (path :: paths) tree = .ok () next) :
    (∃ middle, (middle = tree ∨ middle = lastState (makeLineage paths tree)) ∧
      makeDir path middle = .ok () next) ∨ next.isDir path = true := by
  have hthere {current : FileTree} {fault : Fault} (hdone : (if current.isDir path then .ok () current
      else .error fault current : EStateM.Result Fault FileTree Unit) = .ok () next) :
      next.isDir path = true := by
    split at hdone
    next hdir =>
      cases hdone
      exact hdir
    next => cases hdone
  unfold makeLineage at hmake
  split at hmake
  next hfirst =>
    cases hmake
    exact Or.inl ⟨tree, Or.inl rfl, hfirst⟩
  next =>
    split at hmake
    · cases hmake
    next middle hlineage =>
      split at hmake
      next hsecond =>
        cases hmake
        exact Or.inl ⟨middle, Or.inr (by rw [hlineage]; rfl), hsecond⟩
      next => exact Or.inr (hthere hmake)
  next => exact Or.inr (hthere hmake)

theorem passable_of_makeLineage (hplain : tree.Plain) (hpaths : ∀ upper ∈ paths, Path.OnWay upper path)
    (hmake : makeLineage (path :: paths) tree = .ok () next) :
    next.Passable (next.startOf path) path.steps := by
  rcases makeLineage_ok hmake with ⟨middle, hmiddle, hlast⟩ | hdir
  · refine passable_of_makeDir ?_ hlast
    rcases hmiddle with rfl | rfl
    · exact hplain
    · exact (confined_makeLineage hplain hpaths).plain
  · have hall : ∀ upper ∈ path :: paths, Path.OnWay upper path :=
      List.forall_mem_cons.mpr ⟨.refl path, hpaths⟩
    have hnext := confined_makeLineage hplain hall
    rw [hmake] at hnext
    exact passable_of_isDir hnext.plain.linkFree hdir

theorem acceptable_of_makeLineage (hmake : makeLineage (path :: paths) tree = .ok () next) :
    Acceptable path := by
  rcases makeLineage_ok hmake with ⟨middle, -, hlast⟩ | hdir
  · unfold makeDir at hlast
    split at hlast
    · cases hlast
    · cases hlast
    next hspot => exact (spot_eq_ok_iff.mp hspot).1
  · obtain ⟨location, hfind⟩ := isDir_iff.mp hdir
    exact (spot_eq_ok_iff.mp (find_eq_ok_iff.mp hfind)).1

/-- A directory of a directory is reached through directories once it was created. -/
theorem passable_of_makeDirAll_join {dir name : Path} (hplain : tree.Plain) (hname : Path.IsSegment name)
    (hmake : makeDirAll (Path.join dir name) tree = .ok () next) :
    next.Passable (next.startOf (Path.join dir name)) (Path.join dir name).steps := by
  obtain ⟨paths, hlineage⟩ := Path.exists_lineage_join dir hname
  rw [makeDirAll, hlineage] at hmake
  refine passable_of_makeLineage hplain (fun upper hupper => Path.onWay_of_mem_lineage ?_) hmake
  rw [hlineage]
  exact List.mem_cons_of_mem _ hupper

theorem acceptable_of_makeDirAll_join {dir name : Path} (hname : Path.IsSegment name)
    (hmake : makeDirAll (Path.join dir name) tree = .ok () next) : Acceptable (Path.join dir name) := by
  obtain ⟨paths, hlineage⟩ := Path.exists_lineage_join dir hname
  rw [makeDirAll, hlineage] at hmake
  exact acceptable_of_makeLineage hmake

/-! ## Writing and copying files -/

theorem confined_writeFile (hplain : tree.Plain) (path : Path) (content : Content) :
    Confined (.writes tree path content) tree (lastState (writeFile path content tree)) := by
  cases hwrite : writeFile path content tree with
  | error fault after =>
      obtain rfl := writeFile_error hwrite
      exact .refl hplain
  | ok value next =>
      obtain ⟨-, hdir, rfl⟩ := (writeFile_eq_ok_iff hplain.linkFree).mp hwrite
      have hroot := placeOf_ne_nil_of_writeFile hplain.linkFree hwrite
      refine (confined_put hplain (hplain.isSegment_of_mem_placeOf path) hroot (by simp)).mono ?_
      rintro place old new ⟨rfl, rfl, rfl⟩
      exact ⟨rfl, hdir, rfl⟩

theorem keeps_writeFile (path : Path) (content : Content) : (writeFile path content).Keeps Plain :=
  fun _ hplain => (confined_writeFile hplain path content).plain

theorem confined_copyFile (hplain : tree.Plain) (source target : Path) :
    Confined (.copies tree target) tree (lastState (copyFile source target tree)) := by
  have hempty : Confined (.copies tree target) tree (lastState (writeFile target (.text []) tree)) :=
    (confined_writeFile hplain target (.text [])).mono fun _ _ _ hwrites => ⟨_, hwrites⟩
  unfold copyFile
  split
  · exact .refl hplain
  · split
    next hwrite =>
      rw [hwrite] at hempty
      exact hempty
    next next hwrite =>
      rw [hwrite] at hempty
      split
      next content hcontent =>
        refine hempty.trans (Permit.transitive_copies tree target) ?_
        refine (confined_writeFile hempty.plain target content).mono fun place old new hwrites => ?_
        exact ⟨content, hwrites.1.trans (hempty.placeOf_eq target), hwrites.2⟩
      · exact hempty
  · exact .refl hplain

theorem keeps_copyFile (source target : Path) : (copyFile source target).Keeps Plain :=
  fun _ hplain => (confined_copyFile hplain source target).plain

/-! ## Removing -/

theorem removeFile_error (hremove : removeFile path tree = .error fault after) : after = tree := by
  unfold removeFile at hremove
  split at hremove <;> cases hremove <;> rfl

theorem removeFile_ok (hfree : tree.LinkFree) (hremove : removeFile path tree = .ok () next) :
    (∃ content, tree.entry? (tree.placeOf path) = some (.file content)) ∧
      next = tree.erase (tree.placeOf path) := by
  unfold removeFile at hremove
  split at hremove
  · cases hremove
  · cases hremove
  next location entry hdir hlocate =>
    cases hremove
    obtain ⟨rfl, hentry⟩ := spotAt_eq_entry_iff.mp (locate_spot hfree hlocate).symm
    refine ⟨?_, rfl⟩
    cases entry with
    | dir => exact absurd rfl hdir
    | file content => exact ⟨content, hentry⟩
    | link target => exact absurd hentry (hfree.entry?_ne_link _ target)
  · cases hremove

theorem confined_removeFile (hplain : tree.Plain) (path : Path) :
    Confined (.removesFile tree path) tree (lastState (removeFile path tree)) := by
  cases hremove : removeFile path tree with
  | error fault after =>
      obtain rfl := removeFile_error hremove
      exact .refl hplain
  | ok value next =>
      obtain ⟨hfile, rfl⟩ := removeFile_ok hplain.linkFree hremove
      refine (confined_erase hplain).mono ?_
      rintro place old new ⟨rfl, rfl, rfl⟩
      exact ⟨rfl, hfile, rfl⟩

theorem keeps_removeFile (path : Path) : (removeFile path).Keeps Plain :=
  fun _ hplain => (confined_removeFile hplain path).plain

/-- No more than a directory is removed, links or not. -/
theorem keeps_removeDir_of_erase {holds : FileTree → Prop} (herase : ∀ (tree : FileTree) location,
      holds tree → tree.entry? location = some .dir → holds (tree.erase location)) (path : Path) :
    (removeDir path).Keeps holds := by
  intro tree htree
  unfold removeDir
  split
  · exact htree
  · exact htree
  next location hspot =>
    obtain ⟨found, hfound⟩ := exists_spotAt_of_spot hspot
    obtain ⟨rfl, hdir⟩ := spotAt_eq_entry_iff.mp hfound.symm
    split
    · exact htree
    · exact htree
    · exact htree
    · split
      · exact herase tree found htree hdir
      · exact htree
  · exact htree

theorem removeDir_ok (hfree : tree.LinkFree) (hremove : removeDir path tree = .ok () next) :
    tree.entry? (tree.placeOf path) = some .dir ∧
      (∀ name, tree.entry? (tree.placeOf path ++ [name]) = none) ∧
      next = tree.erase (tree.placeOf path) := by
  unfold removeDir at hremove
  split at hremove
  · cases hremove
  · cases hremove
  next location hspot =>
    obtain ⟨rfl, hentry⟩ := spotAt_eq_entry_iff.mp (spot_eq hfree (Or.inl rfl) hspot).symm
    refine ⟨hentry, ?_⟩
    split at hremove
    · cases hremove
    · cases hremove
    · cases hremove
    · split at hremove
      next hempty =>
        cases hremove
        exact ⟨vacant_of_children_isEmpty hempty, rfl⟩
      next => cases hremove
  · cases hremove

theorem removeDir_error (hremove : removeDir path tree = .error fault after) : after = tree := by
  unfold removeDir at hremove
  repeat' split at hremove
  all_goals cases hremove <;> rfl

theorem confined_removeDir (hplain : tree.Plain) (path : Path) :
    Confined (.removesDir tree path) tree (lastState (removeDir path tree)) := by
  cases hremove : removeDir path tree with
  | error fault after =>
      obtain rfl := removeDir_error hremove
      exact .refl hplain
  | ok value next =>
      obtain ⟨hdir, hempty, rfl⟩ := removeDir_ok hplain.linkFree hremove
      refine (confined_erase hplain).mono ?_
      rintro place old new ⟨rfl, rfl, rfl⟩
      exact ⟨rfl, hdir, hempty, rfl⟩

theorem keeps_removeDir (path : Path) : (removeDir path).Keeps Plain :=
  fun _ hplain => (confined_removeDir hplain path).plain

theorem confined_removeDirAll (hplain : tree.Plain) (path : Path) :
    Confined (.removesAll tree path) tree (lastState (removeDirAll path tree)) := by
  unfold removeDirAll
  split
  · exact .refl hplain
  · exact .refl hplain
  next location hlocate =>
    obtain ⟨rfl, -⟩ := spotAt_eq_entry_iff.mp (locate_spot hplain.linkFree hlocate).symm
    -- what the directory holds goes first, and then the directory itself
    have hinside : Confined (.removesAll tree path) tree (tree.eraseInside (tree.placeOf path)) :=
      (confined_eraseInside hplain).mono fun place old new ⟨hinside, hne, hnone⟩ =>
        ⟨hinside, fun heq => absurd heq hne, hnone⟩
    have hlast : Confined (.removesAll tree path) tree
        (lastState (removeDir path (tree.eraseInside (tree.placeOf path)))) := by
      refine hinside.trans (Permit.transitive_removesAll tree path) ?_
      refine (confined_removeDir hinside.plain path).mono ?_
      rintro place old new ⟨rfl, hdir, -, rfl⟩
      exact ⟨List.prefix_rfl, fun _ => hdir, rfl⟩
    split
    next hremove =>
      rw [hremove] at hlast
      exact hlast
    next => exact hlast
  next location target hlocate =>
    obtain ⟨rfl, hentry⟩ := spotAt_eq_entry_iff.mp (locate_spot hplain.linkFree hlocate).symm
    exact absurd hentry (hplain.linkFree.entry?_ne_link _ target)
  · exact .refl hplain

/-- What a directory held is gone with it. -/
theorem removeDirAll_ok (hplain : tree.Plain) (hremove : removeDirAll path tree = .ok () next)
    (hdir : tree.entry? (tree.placeOf path) = some .dir) {place : Location}
    (hinside : tree.placeOf path <+: place) (hne : place ≠ tree.placeOf path) :
    next.entry? place = none := by
  have hspot {spot : Spot} (hlocate : tree.locate .itself path = .ok spot) :
      spot = .entry (tree.placeOf path) .dir := by
    rw [locate_spot hplain.linkFree hlocate, spotAt, hdir]
  have hgone : entry? (tree.eraseInside (tree.placeOf path)) place = none :=
    entry?_eraseInside hinside hne
  unfold removeDirAll at hremove
  split at hremove
  · cases hremove
  · cases hremove
  next location hlocate =>
    obtain ⟨rfl, -⟩ := Spot.entry.inj (hspot hlocate)
    split at hremove
    next hremoved =>
      cases hremove
      rwa [removeDir_error hremoved]
    next =>
      obtain ⟨-, -, rfl⟩ := removeDir_ok (hplain.eraseInside _).linkFree hremove
      exact (entry?_erase_of_ne hne).trans hgone
  next location target hlocate => cases hspot hlocate
  next location content hlocate => cases hspot hlocate

theorem keeps_removeDirAll (path : Path) : (removeDirAll path).Keeps Plain :=
  fun _ hplain => (confined_removeDirAll hplain path).plain

/-! ## Staying confined -/

section

variable {base : FileTree} {permits : Permit} (htrans : permits.Transitive)

include htrans

/-- An operation that does only what is permitted keeps all changes so far confined. -/
theorem keeps_confined {α : Type} {operation : Change α} {does : FileTree → Permit}
    (hdoes : ∀ tree, tree.Plain → Confined (does tree) tree (lastState (operation tree)))
    (hpermits : ∀ tree : FileTree, Confined permits base tree →
      ∀ place old new, does tree place old new → permits place old new) :
    operation.Keeps (Confined permits base) := fun tree hconfined =>
  hconfined.trans htrans ((hdoes tree hconfined.plain).mono (hpermits tree hconfined))

theorem confined_of_creates (hpermits : ∀ tree : FileTree, Confined permits base tree → ∀ place,
      tree.entry? place = none → base.Passes path place → permits place none (some .dir)) :
    (makeDirAll path).Keeps (Confined permits base) := by
  intro tree hconfined
  obtain ⟨hplain, hworking, hentries⟩ := confined_makeDirAll hconfined.plain path
  refine hconfined.trans htrans ⟨hplain, hworking, fun place => (hentries place).imp_right ?_⟩
  rintro ⟨hpasses, hvacant, hdir⟩
  rw [hvacant, hdir]
  exact hpermits tree hconfined place hvacant ((passes_congr hconfined.workingDir).mp hpasses)

theorem confined_of_writes {content : Content} (hpermits : ∀ old, old ≠ some .dir →
      permits (base.placeOf path) old (some (.file content))) :
    (writeFile path content).Keeps (Confined permits base) := by
  refine keeps_confined htrans (fun _ hplain => confined_writeFile hplain path content) ?_
  rintro tree hconfined place old new ⟨rfl, hdir, rfl⟩
  exact hconfined.placeOf_eq path ▸ hpermits old hdir

theorem confined_of_copies (hpermits : ∀ old content, old ≠ some .dir →
      permits (base.placeOf path) old (some (.file content))) (source : Path) :
    (copyFile source path).Keeps (Confined permits base) := by
  refine keeps_confined htrans (fun _ hplain => confined_copyFile hplain source path) ?_
  rintro tree hconfined place old new ⟨content, rfl, hdir, rfl⟩
  exact hconfined.placeOf_eq path ▸ hpermits old content hdir

theorem confined_of_removesFile
    (hpermits : ∀ content, permits (base.placeOf path) (some (.file content)) none) :
    (removeFile path).Keeps (Confined permits base) := by
  refine keeps_confined htrans (fun _ hplain => confined_removeFile hplain path) ?_
  rintro tree hconfined place old new ⟨rfl, ⟨content, rfl⟩, rfl⟩
  exact hconfined.placeOf_eq path ▸ hpermits content

theorem confined_of_removesDir (hpermits : ∀ tree : FileTree, Confined permits base tree →
      (∀ name, tree.entry? (base.placeOf path ++ [name]) = none) →
      permits (base.placeOf path) (some .dir) none) :
    (removeDir path).Keeps (Confined permits base) := by
  refine keeps_confined htrans (fun _ hplain => confined_removeDir hplain path) ?_
  rintro tree hconfined place old new ⟨rfl, rfl, hempty, rfl⟩
  rw [hconfined.placeOf_eq path] at hempty ⊢
  exact hpermits tree hconfined hempty

theorem confined_of_removesAll
    (hpermits : ∀ place old, base.placeOf path <+: place →
      (place = base.placeOf path → old = some .dir) → permits place old none) :
    (removeDirAll path).Keeps (Confined permits base) := by
  refine keeps_confined htrans (fun _ hplain => confined_removeDirAll hplain path) ?_
  rintro tree hconfined place old new ⟨hinside, hdir, rfl⟩
  rw [hconfined.placeOf_eq path] at hinside hdir
  exact hpermits place old hinside hdir

end

end Change

end ServiceScaffold
