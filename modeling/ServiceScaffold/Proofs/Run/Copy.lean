import ServiceScaffold.Proofs.Run.Below

/-! # What a copy brings

A copy of a directory is laid over what the target holds: where the source holds a file the target
holds that file afterwards, and everywhere else it holds what it held before. Nothing is left out, and
what the source holds is all that is brought.
-/

namespace ServiceScaffold

/-- What an entry holds, if it is a file. -/
def Entry.content? : Entry → Option Content
  | .file content => some content
  | _ => none

/-- Files stay as they are at certain places, and none is added there. -/
def Permit.sparesFiles (kept : Location → Prop) : Permit := fun place old new =>
  kept place → new.bind Entry.content? = old.bind Entry.content?

theorem Permit.transitive_sparesFiles (kept : Location → Prop) : (sparesFiles kept).Transitive :=
  fun _ _ _ _ hfirst hsecond hkept => (hsecond hkept).trans (hfirst hkept)

/-- Nothing changes inside a place, and directories stay everywhere. -/
def Permit.leaves (place : Location) : Permit := fun other old _ => ¬ place <+: other ∧ old ≠ some .dir

theorem Permit.transitive_leaves (place : Location) : (leaves place).Transitive :=
  fun _ _ _ _ hfirst _ => hfirst

namespace FileTree

variable {tree before after : FileTree} {place : Location} {content : Content} {dir : Path}

/-- What the file at a place holds, if there is one. -/
def file? (tree : FileTree) (place : Location) : Option Content :=
  (tree.entry? place).bind Entry.content?

/-- What the file at a place in a directory holds, if the path leads to a directory. -/
def fileIn? (tree : FileTree) (dir : Path) (names : List Text) : Option Content :=
  if tree.isDir dir then tree.file? (tree.placeOf dir ++ names) else none

/-- What the file holds that a path leads to, if it leads to one. -/
def fileAt? (tree : FileTree) (path : Path) : Option Content :=
  if tree.isFile path then tree.file? (tree.placeOf path) else none

theorem file?_eq_some_iff : tree.file? place = some content ↔ tree.entry? place = some (.file content) := by
  unfold file?
  cases tree.entry? place with
  | none => simp
  | some entry => cases entry <;> simp [Entry.content?]

theorem file?_of_fileIn? {names : List Text} (hfile : tree.fileIn? dir names = some content) :
    tree.file? (tree.placeOf dir ++ names) = some content := by
  unfold fileIn? at hfile
  split at hfile
  · exact hfile
  · cases hfile

theorem file?_of_fileAt? {path : Path} (hfile : tree.fileAt? path = some content) :
    tree.file? (tree.placeOf path) = some content := by
  unfold fileAt? at hfile
  split at hfile
  · exact hfile
  · cases hfile

theorem Confined.file?_eq {kept : Location → Prop} (hconfined : Confined (.sparesFiles kept) before after)
    (hkept : kept place) : after.file? place = before.file? place := by
  rcases hconfined.entries place with hsame | hspares
  · rw [file?, file?, hsame]
  · exact hspares hkept

/-! ## What a directory offers -/

/-- What can be copied of a directory's own entries is the same in both trees. -/
structure SameOffer (dir : Path) (before after : FileTree) : Prop where
  fileIn? : ∀ {name}, Path.IsSegment name → ∀ names,
    after.fileIn? (Path.join dir name) names = before.fileIn? (Path.join dir name) names
  fileAt? : ∀ {name}, Path.IsSegment name →
    after.fileAt? (Path.join dir name) = before.fileAt? (Path.join dir name)

theorem SameOffer.refl (dir : Path) (tree : FileTree) : SameOffer dir tree tree :=
  ⟨fun _ _ => rfl, fun _ => rfl⟩

theorem SameOffer.trans {last : FileTree} (hfirst : SameOffer dir before after)
    (hsecond : SameOffer dir after last) : SameOffer dir before last :=
  ⟨fun hname names => (hsecond.fileIn? hname names).trans (hfirst.fileIn? hname names),
    fun hname => (hsecond.fileAt? hname).trans (hfirst.fileAt? hname)⟩

/-- A directory that is reached through directories offers the same as long as nothing changes inside
it. -/
theorem Confined.sameOffer (hplain : before.Plain)
    (hconfined : Confined (.leaves (before.placeOf dir)) before after)
    (hdirs : before.Passable (before.startOf dir) dir.steps) : SameOffer dir before after := by
  have hplace := hconfined.placeOf_eq
  have hinside (names : List Text) :
      after.entry? (before.placeOf dir ++ names) = before.entry? (before.placeOf dir ++ names) :=
    hconfined.entry?_eq fun hleaves => hleaves.1 (List.prefix_append _ _)
  have hdirsAfter : after.Passable (after.startOf dir) dir.steps := by
    rw [startOf_congr hconfined.workingDir]
    exact hdirs.mono fun place hdir =>
      hdir ▸ hconfined.entry?_eq fun hleaves => hleaves.2 hdir
  refine ⟨fun {name} hname names => ?_, fun {name} hname => ?_⟩
  · have hisDir : after.isDir (Path.join dir name) = before.isDir (Path.join dir name) := by
      rw [Bool.eq_iff_iff, isDir_join_iff hname hplain.linkFree,
        isDir_join_iff hname hconfined.plain.linkFree, hplace, hinside]
      simp only [hdirs, hdirsAfter]
    rw [FileTree.fileIn?, FileTree.fileIn?, hisDir, hplace, placeOf_join hname, List.append_assoc, file?,
      hinside]
    rfl
  · have hisFile : after.isFile (Path.join dir name) = before.isFile (Path.join dir name) := by
      rw [Bool.eq_iff_iff, isFile_join_iff hname hplain.linkFree,
        isFile_join_iff hname hconfined.plain.linkFree, hplace, hinside]
      simp only [hdirs, hdirsAfter]
    rw [FileTree.fileAt?, FileTree.fileAt?, hisFile, hplace, placeOf_join hname, file?, hinside]
    rfl

/-- A directory stays where no directory is lost. -/
theorem Confined.isDir_join (hplain : before.Plain) (hconfined : Confined (.leaves place) before after)
    {name : Text} (hname : Path.IsSegment name) (hdir : before.isDir (Path.join dir name) = true) :
    after.isDir (Path.join dir name) = true := by
  obtain ⟨haccept, hdirs, hlong, hentry⟩ := (isDir_join_iff hname hplain.linkFree).mp hdir
  have hkept (other : Location) (hother : before.entry? other = some .dir) :
      after.entry? other = some .dir :=
    hother ▸ hconfined.entry?_eq fun hleaves => hleaves.2 hother
  refine (isDir_join_iff hname hconfined.plain.linkFree).mpr ⟨haccept, ?_, hlong, ?_⟩
  · rw [startOf_congr hconfined.workingDir]
    exact hdirs.mono hkept
  · exact hconfined.placeOf_eq dir ▸ hkept _ hentry

end FileTree

open FileTree

/-- Below a directory no file is written that is to stay, if none of those is inside it. -/
theorem Change.keptBelow_sparesFiles {tree : FileTree} {base : Path} {kept : Location → Prop}
    (hkept : ∀ place, tree.placeOf base <+: place → place ≠ tree.placeOf base → ¬ kept place) :
    Change.KeptBelow base (Confined (.sparesFiles kept) tree) :=
  Change.keptBelow_confined (Permit.transitive_sparesFiles kept) (fun _ _ _ _ _ _ => rfl)
    fun place _ _ hinside hne _ hplace => absurd hplace (hkept place hinside hne)

/-- A file that is copied elsewhere is put there with what it holds. -/
theorem Change.put_of_copyFile {tree next : FileTree} {source target : Path} (hplain : tree.Plain)
    (hne : tree.placeOf source ≠ tree.placeOf target)
    (hok : Change.copyFile source target tree = .ok () next) :
    ∃ content, tree.find source = .ok (tree.placeOf source, .file content) ∧
      (∃ spot, tree.locate .creation target = .ok spot) ∧
      tree.entry? (tree.placeOf target) ≠ some .dir ∧ tree.placeOf target ≠ [] ∧
      next = tree.put (tree.placeOf target) (.file content) := by
  unfold Change.copyFile at hok
  split at hok
  · cases hok
  next location content hfind =>
    obtain ⟨rfl, hsource⟩ := entry?_of_find hplain.linkFree hfind
    split at hok
    · cases hok
    next emptied hwrite =>
      have hroot := placeOf_ne_nil_of_writeFile hplain.linkFree hwrite
      have hemptied : emptied.Plain := (Change.keeps_writeFile target (.text [])).of_ok hwrite hplain
      obtain ⟨hreached, hdir, rfl⟩ := (writeFile_eq_ok_iff hplain.linkFree).mp hwrite
      -- the source is not the target, so it was not emptied
      rw [entry?_put hroot, if_neg hne, hsource] at hok
      obtain ⟨-, -, rfl⟩ := (writeFile_eq_ok_iff hemptied.linkFree).mp hok
      exact ⟨content, hfind, hreached, hdir, hroot, put_put tree _ _ _⟩
  · cases hok

theorem Change.copyFile_ok {tree next : FileTree} {source target : Path} (hplain : tree.Plain)
    (hne : tree.placeOf source ≠ tree.placeOf target)
    (hok : Change.copyFile source target tree = .ok () next) :
    ∃ content, tree.file? (tree.placeOf source) = some content ∧
      next.file? (tree.placeOf target) = some content := by
  obtain ⟨content, hfind, -, -, hroot, rfl⟩ := Change.put_of_copyFile hplain hne hok
  refine ⟨content, file?_eq_some_iff.mpr (entry?_of_find hplain.linkFree hfind).2, ?_⟩
  exact file?_eq_some_iff.mpr ((entry?_put hroot _).trans (if_pos rfl))

/-! ## Entries one after another -/

/-- The place of a listed entry, other than a directory, in the target. -/
def Copied (target : Location) (entries : List (Location × Entry)) (place : Location) : Prop :=
  ∃ names entry, (names, entry) ∈ entries ∧ entry ≠ .dir ∧ place = target ++ names

/-- Listed entries were copied from one place to another, and nothing else was done to any file. -/
structure Copies (source target : Location) (entries : List (Location × Entry))
    (before after : FileTree) : Prop where
  confined : Confined (.sparesFiles fun place => ¬ Copied target entries place) before after
  copied : ∀ names entry, (names, entry) ∈ entries → entry ≠ .dir → ∃ content,
    before.file? (source ++ names) = some content ∧ after.file? (target ++ names) = some content

namespace Copies

variable {source target : Location} {first second : List (Location × Entry)}
variable {before middle after : FileTree}

theorem nil (hplain : before.Plain) : Copies source target [] before before :=
  ⟨.refl hplain, fun _ _ hmem => absurd hmem List.not_mem_nil⟩

/-- Of two copies the later one decides, and both bring what the source holds. -/
theorem append (hapart : ∀ names more, source ++ names ≠ target ++ more)
    (hfirst : Copies source target first before middle)
    (hsecond : Copies source target second middle after) :
    Copies source target (first ++ second) before after where
  confined := by
    refine (hfirst.confined.mono ?_).trans (Permit.transitive_sparesFiles _) (hsecond.confined.mono ?_)
    · exact fun place old new hspares hplace => hspares fun ⟨names, entry, hmem, hcopied⟩ =>
        hplace ⟨names, entry, List.mem_append_left _ hmem, hcopied⟩
    · exact fun place old new hspares hplace => hspares fun ⟨names, entry, hmem, hcopied⟩ =>
        hplace ⟨names, entry, List.mem_append_right _ hmem, hcopied⟩
  copied := by
    have hsource (names : List Text) : middle.file? (source ++ names) = before.file? (source ++ names) :=
      hfirst.confined.file?_eq fun ⟨more, _, _, _, hplace⟩ => hapart names more hplace
    intro names entry hmem hdir
    rcases List.mem_append.mp hmem with hmem | hmem
    · obtain ⟨content, hheld, hbrought⟩ := hfirst.copied names entry hmem hdir
      refine ⟨content, hheld, ?_⟩
      by_cases hagain : Copied target second (target ++ names)
      · obtain ⟨others, other, hother, hotherDir, hplace⟩ := hagain
        obtain rfl := List.append_cancel_left hplace
        obtain ⟨same, hsame, hlast⟩ := hsecond.copied names other hother hotherDir
        rw [hsource, hheld] at hsame
        exact hsame ▸ hlast
      · exact (hsecond.confined.file?_eq hagain).trans hbrought
    · obtain ⟨content, hheld, hbrought⟩ := hsecond.copied names entry hmem hdir
      exact ⟨content, (hsource names).symm.trans hheld, hbrought⟩

/-- A copy of all that a directory holds is laid over the files of the target. -/
theorem file?_eq (hdir : before.entry? source = some .dir)
    (hcopies : Copies source target (before.inside source) before after) (names : List Text) :
    after.file? (target ++ names) =
      (before.file? (source ++ names)).or (before.file? (target ++ names)) := by
  cases hheld : before.file? (source ++ names) with
  | some content =>
      -- the file is listed
      have hinside : names ≠ [] := by
        rintro rfl
        rw [List.append_nil, file?, hdir] at hheld
        cases hheld
      have hentry := mem_entries (by simp [hinside]) (file?_eq_some_iff.mp hheld)
      obtain ⟨same, hsame, hbrought⟩ :=
        hcopies.copied names _ (mem_inside_iff.mpr ⟨hinside, hentry⟩) (by simp)
      rw [hheld] at hsame
      rw [hbrought, ← hsame, Option.some_or]
  | none =>
      -- what is listed and not a directory was found to be a file
      rw [Option.none_or]
      refine hcopies.confined.file?_eq ?_
      rintro ⟨others, entry, hmem, hentry, hplace⟩
      obtain rfl := List.append_cancel_left hplace
      obtain ⟨content, hfile, -⟩ := hcopies.copied names entry hmem hentry
      rw [hheld] at hfile
      cases hfile

end Copies

namespace Run

variable {source target : Path} {world after : World} {count : Nat}

theorem copyEntry_of_ne_dir {entry : Entry} (hdir : entry ≠ .dir) (source target : Path)
    (names : Location) :
    copyEntry source target (names, entry) =
      (do
        change (.copy (Path.joinAll source names) (copyPath target names))
          (Change.copyFile (Path.joinAll source names) (copyPath target names))
        pure 1) := by
  cases entry with
  | dir => exact absurd rfl hdir
  | file => rfl
  | link => rfl

theorem copyEntry_ok {names : Location} {entry : Entry} (hplain : world.tree.Plain)
    (hnames : ∀ name ∈ names, Path.IsSegment name)
    (hapart : ∀ names more, world.tree.placeOf source ++ names ≠ world.tree.placeOf target ++ more)
    (hok : copyEntry source target (names, entry) world = .ok count after) :
    Copies (world.tree.placeOf source) (world.tree.placeOf target) [(names, entry)] world.tree
      after.tree := by
  have htarget : world.tree.placeOf (copyPath target names) = world.tree.placeOf target ++ names :=
    placeOf_below ((Path.Below.refl target).join_intercalate hnames)
  have hsource : world.tree.placeOf (Path.joinAll source names) = world.tree.placeOf source ++ names :=
    placeOf_below ((Path.Below.refl source).joinAll hnames)
  by_cases hdir : entry = .dir
  · subst hdir
    obtain ⟨⟨⟩, created, hcreate, hok⟩ := bind_eq_ok_iff.mp hok
    obtain ⟨-, rfl⟩ := pure_eq_ok_iff.mp hok
    have hcreated := Change.confined_makeDirAll hplain (copyPath target names)
    rw [copyPath, tree_of_change_ok hcreate] at hcreated
    refine ⟨hcreated.mono ?_, fun others entry hmem hentry => ?_⟩
    · rintro place old new ⟨-, rfl, rfl⟩ -
      rfl
    · exact absurd (Prod.mk.inj (List.mem_singleton.mp hmem)).2 hentry
  · rw [copyEntry_of_ne_dir hdir] at hok
    obtain ⟨⟨⟩, copied, hcopy, hok⟩ := bind_eq_ok_iff.mp hok
    obtain ⟨-, rfl⟩ := pure_eq_ok_iff.mp hok
    have hdone := tree_of_change_ok hcopy
    have hne : world.tree.placeOf (Path.joinAll source names) ≠
        world.tree.placeOf (copyPath target names) := by
      rw [hsource, htarget]
      exact hapart names names
    obtain ⟨content, hheld, hbrought⟩ := Change.copyFile_ok hplain hne hdone
    have hcopied := Change.confined_copyFile hplain (Path.joinAll source names) (copyPath target names)
    rw [hdone] at hcopied
    refine ⟨hcopied.mono ?_, fun others other hmem _ => ?_⟩
    · rintro place old new ⟨written, rfl, -, -⟩ hkept
      exact absurd ⟨names, entry, List.mem_singleton_self _, hdir, htarget⟩ hkept
    · obtain ⟨rfl, -⟩ := Prod.mk.inj (List.mem_singleton.mp hmem)
      exact ⟨content, hsource ▸ hheld, htarget ▸ hbrought⟩

theorem copyEntries_ok {entries : List (Location × Entry)} (hplain : world.tree.Plain)
    (hnames : ∀ entry ∈ entries, ∀ name ∈ entry.1, Path.IsSegment name)
    (hapart : ∀ names more, world.tree.placeOf source ++ names ≠ world.tree.placeOf target ++ more)
    (hok : copyEntries source target entries world = .ok count after) :
    Copies (world.tree.placeOf source) (world.tree.placeOf target) entries world.tree after.tree := by
  induction entries generalizing world count with
  | nil =>
      obtain ⟨-, rfl⟩ := pure_eq_ok_iff.mp hok
      exact .nil hplain
  | cons entry entries ih =>
      obtain ⟨hentry, hrest⟩ := List.forall_mem_cons.mp hnames
      obtain ⟨first, middle, hfirst, hok⟩ := bind_eq_ok_iff.mp hok
      obtain ⟨others, last, hothers, hok⟩ := bind_eq_ok_iff.mp hok
      obtain ⟨-, rfl⟩ := pure_eq_ok_iff.mp hok
      have hcopies := copyEntry_ok hplain hentry hapart hfirst
      have hplace := hcopies.confined.placeOf_eq
      have hlater := ih hcopies.confined.plain hrest (by simpa only [hplace] using hapart) hothers
      rw [hplace, hplace] at hlater
      exact hcopies.append hapart hlater

/-! ## Directories -/

theorem copyDir_of_not_isDir (hdir : ¬ world.tree.isDir source = true) (target : Path) :
    copyDir source target world = .ok 0 world := by
  rw [copyDir, bind_of_ok (rfl : tree world = .ok world.tree world), if_neg hdir]
  rfl

/-- The target is created first, and then what is inside the directory is copied. -/
theorem copyDir_of_isDir (hfree : world.tree.LinkFree) (hdir : world.tree.isDir source = true)
    (target : Path) :
    copyDir source target world =
      (createDir (copyPath target []) >>= fun _ => tree >>= fun tree =>
        copyEntries source target (tree.inside (world.tree.placeOf source))) world := by
  have htree : tree world = .ok world.tree world := rfl
  rw [copyDir, bind_of_ok htree, if_pos hdir, bind_of_ok htree, locate_of_isDir hfree hdir]
  change (copyEntry source target ([], .dir) >>= _) world = _
  rw [copyEntry, bind_assoc]
  simp only [pure_bind, Nat.zero_add, bind_pure]
  rfl

theorem copyDir_eq_ok_iff (hfree : world.tree.LinkFree) (hdir : world.tree.isDir source = true) :
    copyDir source target world = .ok count after ↔
      ∃ made, createDir (copyPath target []) world = .ok () made ∧
        copyEntries source target (made.tree.inside (world.tree.placeOf source)) made =
          .ok count after := by
  rw [copyDir_of_isDir hfree hdir, bind_eq_ok_iff]
  exact ⟨fun ⟨_, made, hmade, hcopied⟩ => ⟨made, hmade, hcopied⟩,
    fun ⟨made, hmade, hcopied⟩ => ⟨(), made, hmade, hcopied⟩⟩

/-- A copy of a directory is laid over the files of the target, and no other file is touched. -/
theorem copyDir_ok (hplain : world.tree.Plain)
    (hapart : ∀ names more, world.tree.placeOf source ++ names ≠ world.tree.placeOf target ++ more)
    (hok : copyDir source target world = .ok count after) :
    Confined (.sparesFiles fun place => ¬ world.tree.placeOf target <+: place) world.tree after.tree ∧
      ∀ names, after.tree.file? (world.tree.placeOf target ++ names) =
        (world.tree.fileIn? source names).or
          (world.tree.file? (world.tree.placeOf target ++ names)) := by
  by_cases hdir : world.tree.isDir source = true
  · obtain ⟨made, hmade, hok⟩ := (copyDir_eq_ok_iff hplain.linkFree hdir).mp hok
    have hcreated := Change.confined_makeDirAll hplain (copyPath target [])
    rw [tree_of_change_ok hmade] at hcreated
    -- no file is touched where directories are created
    have hspared : Confined (.sparesFiles fun _ => True) world.tree made.tree := by
      refine hcreated.mono ?_
      rintro place old new ⟨-, rfl, rfl⟩ -
      rfl
    have hfiles (place : Location) : made.tree.file? place = world.tree.file? place :=
      hspared.file?_eq trivial
    have hplace := hspared.placeOf_eq
    have hcopies := copyEntries_ok hspared.plain
      (fun _ => isSegment_of_mem_inside hspared.plain) (by simpa only [hplace] using hapart) hok
    rw [hplace, hplace] at hcopies
    refine ⟨Confined.trans (Permit.transitive_sparesFiles _) (hspared.mono ?_)
      (hcopies.confined.mono ?_), fun names => ?_⟩
    · exact fun place old new hspares _ => hspares trivial
    · rintro place old new hspares hoff
      refine hspares fun ⟨names, entry, _, _, hplace⟩ => hoff ?_
      exact hplace ▸ List.prefix_append _ _
    · have hsource : world.tree.entry? (world.tree.placeOf source) = some .dir :=
        (entry?_of_find hplain.linkFree (isDir_iff.mp hdir).choose_spec).2
      have hmadeSource : made.tree.entry? (world.tree.placeOf source) = some .dir :=
        (createDir_ok hplain hmade).2.entries _ _ hsource
      rw [fileIn?, if_pos hdir, ← hfiles, ← hfiles]
      exact hcopies.file?_eq hmadeSource names
  · rw [copyDir_of_not_isDir hdir] at hok
    cases hok
    exact ⟨.refl hplain, fun names => by rw [fileIn?, if_neg hdir, Option.none_or]⟩

theorem copyFileIfThere_of_not_isFile (hfile : ¬ world.tree.isFile source = true) (target : Path) :
    copyFileIfThere source target world = .ok false world := by
  rw [copyFileIfThere, bind_of_ok (rfl : tree world = .ok world.tree world), if_neg hfile]
  rfl

/-- A copy of a file is put in place of what the target holds, and no other file is touched. -/
theorem copyFileIfThere_ok {copied : Bool} (hplain : world.tree.Plain)
    (hne : world.tree.placeOf source ≠ world.tree.placeOf target)
    (hok : copyFileIfThere source target world = .ok copied after) :
    Confined (.sparesFiles fun place => place ≠ world.tree.placeOf target) world.tree after.tree ∧
      after.tree.file? (world.tree.placeOf target) =
        (world.tree.fileAt? source).or (world.tree.file? (world.tree.placeOf target)) := by
  obtain ⟨tree, first, htree, hok⟩ := bind_eq_ok_iff.mp hok
  obtain ⟨rfl, rfl⟩ := EStateM.Result.ok.inj htree
  split at hok
  next hfile =>
    obtain ⟨⟨⟩, last, hcopy, hok⟩ := bind_eq_ok_iff.mp hok
    obtain ⟨-, rfl⟩ := pure_eq_ok_iff.mp hok
    have hdone := tree_of_change_ok hcopy
    obtain ⟨content, hheld, hbrought⟩ := Change.copyFile_ok hplain hne hdone
    have hcopied := Change.confined_copyFile hplain source target
    rw [hdone] at hcopied
    refine ⟨hcopied.mono ?_, by rw [fileAt?, if_pos hfile, hheld, hbrought, Option.some_or]⟩
    rintro place old new ⟨written, rfl, -, -⟩ hkept
    exact absurd rfl hkept
  next hfile =>
    obtain ⟨-, rfl⟩ := pure_eq_ok_iff.mp hok
    exact ⟨.refl hplain, by rw [fileAt?, if_neg hfile, Option.none_or]⟩

/-- No file is left in a directory that was removed. -/
theorem file?_of_removeDirAllIfThere {removed : Bool} (hplain : world.tree.Plain)
    (hok : removeDirAllIfThere source world = .ok removed after)
    (hdir : world.tree.isDir source = true) {place : Location}
    (hinside : world.tree.placeOf source <+: place) : after.tree.file? place = none := by
  obtain ⟨hconfined, hgone⟩ := removeDirAllIfThere_ok hplain hok
  by_cases hne : place = world.tree.placeOf source
  · -- the directory itself was no file and is none
    obtain ⟨location, hfind⟩ := isDir_iff.mp hdir
    have hentry := (entry?_of_find hplain.linkFree hfind).2
    rw [file?, hne]
    rcases hconfined.entries (world.tree.placeOf source) with hsame | ⟨-, -, hnone⟩
    · rw [hsame, hentry]
      rfl
    · rw [hnone]
      rfl
  · rw [file?, hgone hdir place hinside hne]
    rfl

end Run

end ServiceScaffold
