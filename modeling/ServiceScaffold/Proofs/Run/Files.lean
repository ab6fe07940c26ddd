import ServiceScaffold.Proofs.FileTree.Change
import ServiceScaffold.Run.Files

/-! # What the operations on files keep

A property of the tree is kept by an operation on files if the changes that it is made of keep it.
-/

namespace ServiceScaffold

namespace Run

variable {holds : FileTree → Prop} {path source target : Path}

theorem keeps_createDir (hmake : (Change.makeDirAll path).Keeps holds) :
    (createDir path).Keeps holds := keeps_change hmake _

theorem keeps_writeUnlessThere {content : Text} {force : Bool}
    (hmake : ∀ parent, Path.parent? path = some parent → (Change.makeDirAll parent).Keeps holds)
    (hwrite : (Change.writeFile path (.text content)).Keeps holds) :
    (writeUnlessThere path content force).Keeps holds := by
  refine keeps_tree.bind fun tree => ?_
  split
  · refine (keeps_log _).bind fun _ => ?_
    exact (keeps_tell _).bind fun _ => keeps_pure _
  · split
    next parent hparent =>
      refine (keeps_change (hmake parent hparent) _).bind fun _ => ?_
      exact (keeps_change hwrite _).bind fun _ => keeps_pure _
    next => exact (keeps_change hwrite _).bind fun _ => keeps_pure _

/-- The path that an entry of a directory is copied to. -/
def copyPath (target : Path) (place : Location) : Path := Path.join target (List.intercalate "/" place)

theorem keeps_copyEntry {place : Location} {entry : Entry}
    (hmake : (Change.makeDirAll (copyPath target place)).Keeps holds)
    (hcopy : ∀ held, (Change.copyFile held (copyPath target place)).Keeps holds) :
    (copyEntry source target (place, entry)).Keeps holds := by
  unfold copyEntry
  split
  next heq =>
    cases heq
    exact (keeps_change hmake _).bind fun _ => keeps_pure _
  next heq =>
    cases heq
    exact (keeps_change (hcopy _) _).bind fun _ => keeps_pure _

theorem keeps_copyEntries {entries : List (Location × Entry)}
    (hentries : ∀ entry ∈ entries, (copyEntry source target entry).Keeps holds) :
    (copyEntries source target entries).Keeps holds := by
  induction entries with
  | nil => exact keeps_pure _
  | cons entry entries ih =>
      obtain ⟨hentry, hrest⟩ := List.forall_mem_cons.mp hentries
      exact hentry.bind fun _ => (ih hrest).bind fun _ => keeps_pure _

theorem keeps_copyDir (htop : ∀ entry, (copyEntry source target ([], entry)).Keeps holds)
    (hentries : ∀ tree, holds tree → ∀ place, ∀ entry ∈ tree.inside place,
      (copyEntry source target entry).Keeps holds) :
    (copyDir source target).Keeps holds := by
  refine keeps_tree.bind fun tree => ?_
  split
  · refine keeps_tree.bind fun tree => ?_
    split
    next location _ =>
      refine (htop .dir).bind fun _ => keeps_tree_bind fun tree htree => ?_
      exact (keeps_copyEntries (hentries tree htree location)).bind fun _ => keeps_pure _
    next => exact htop _
    next => exact keeps_pure _
  · exact keeps_pure _

theorem keeps_copyFileIfThere (hcopy : (Change.copyFile source target).Keeps holds) :
    (copyFileIfThere source target).Keeps holds := by
  refine keeps_tree.bind fun tree => ?_
  split
  · exact (keeps_change hcopy _).bind fun _ => keeps_pure _
  · exact keeps_pure _

theorem keeps_removeFileIfThere (hremove : (Change.removeFile path).Keeps holds) :
    (removeFileIfThere path).Keeps holds := by
  refine keeps_tree.bind fun tree => ?_
  split
  · exact (keeps_change hremove _).bind fun _ => keeps_pure _
  · exact keeps_pure _

theorem keeps_removeDirAllIfThere (hremove : (Change.removeDirAll path).Keeps holds) :
    (removeDirAllIfThere path).Keeps holds := by
  refine keeps_tree.bind fun tree => ?_
  split
  · exact (keeps_change hremove _).bind fun _ => keeps_pure _
  · exact keeps_pure _

theorem keeps_removeDirIfEmpty (hremove : (Change.removeDir path).Keeps holds) :
    (removeDirIfEmpty path).Keeps holds := by
  refine keeps_tree.bind fun tree => ?_
  split
  · refine (keeps_look _ _).bind fun listing => ?_
    split
    · exact (keeps_change hremove _).bind fun _ => keeps_pure _
    · exact keeps_pure _
  · exact keeps_pure _

end Run

/-! ## Kept by every change -/

/-- Every change of the tree keeps the property. -/
structure Change.Kept (holds : FileTree → Prop) : Prop where
  makeDirAll : ∀ path, (Change.makeDirAll path).Keeps holds
  writeFile : ∀ path content, (Change.writeFile path content).Keeps holds
  copyFile : ∀ source target, (Change.copyFile source target).Keeps holds
  removeFile : ∀ path, (Change.removeFile path).Keeps holds
  removeDir : ∀ path, (Change.removeDir path).Keeps holds
  removeDirAll : ∀ path, (Change.removeDirAll path).Keeps holds

namespace Change.Kept

variable {holds : FileTree → Prop} (hkept : Change.Kept holds)

include hkept

theorem writeUnlessThere (path : Path) (content : Text) (force : Bool) :
    (Run.writeUnlessThere path content force).Keeps holds :=
  Run.keeps_writeUnlessThere (fun _ _ => hkept.makeDirAll _) (hkept.writeFile _ _)

theorem copyDir (source target : Path) : (Run.copyDir source target).Keeps holds := by
  have hentry (entry : Location × Entry) : (Run.copyEntry source target entry).Keeps holds :=
    Run.keeps_copyEntry (hkept.makeDirAll _) fun _ => hkept.copyFile _ _
  exact Run.keeps_copyDir (fun _ => hentry _) fun _ _ _ entry _ => hentry entry

end Change.Kept

namespace Run

/-! ## Operations that succeed -/

section

open FileTree

variable {path : Path} {content : Text} {force : Bool} {world after : World}

/-- A file that is not written is there; one that is written has the directories above it created
first. -/
theorem writeUnlessThere_cases {written : Bool}
    (hok : writeUnlessThere path content force world = .ok written after) :
    written = false ∧ world.tree.holds path = true ∧ force = false ∧ after.tree = world.tree ∨
    written = true ∧ (world.tree.holds path = true → force = true) ∧ ∃ middle,
      (∀ parent, Path.parent? path = some parent →
        Change.makeDirAll parent world.tree = .ok () middle) ∧
      (Path.parent? path = none → middle = world.tree) ∧
      Change.writeFile path (.text content) middle = .ok () after.tree := by
  obtain ⟨tree, first, htree, hok⟩ := bind_eq_ok_iff.mp hok
  obtain ⟨rfl, rfl⟩ := EStateM.Result.ok.inj htree
  split at hok
  next hskip =>
    rw [Bool.and_eq_true, Bool.not_eq_true'] at hskip
    obtain ⟨⟨⟩, logged, hlog, hok⟩ := bind_eq_ok_iff.mp hok
    obtain ⟨⟨⟩, told, htell, hok⟩ := bind_eq_ok_iff.mp hok
    obtain ⟨rfl, rfl⟩ := pure_eq_ok_iff.mp hok
    cases hlog
    cases htell
    exact Or.inl ⟨rfl, hskip.1, hskip.2, rfl⟩
  next hwrite =>
    have hforce : world.tree.holds path = true → force = true := by simpa using hwrite
    refine Or.inr ?_
    cases hparent : Path.parent? path with
    | some parent =>
        rw [hparent] at hok
        obtain ⟨⟨⟩, created, hcreate, hok⟩ := bind_eq_ok_iff.mp hok
        obtain ⟨⟨⟩, last, hchange, hok⟩ := bind_eq_ok_iff.mp hok
        obtain ⟨rfl, rfl⟩ := pure_eq_ok_iff.mp hok
        refine ⟨rfl, hforce, created.tree, ?_, by simp, tree_of_change_ok hchange⟩
        rintro other hother
        cases hother
        exact tree_of_change_ok hcreate
    | none =>
        rw [hparent] at hok
        obtain ⟨⟨⟩, last, hchange, hok⟩ := bind_eq_ok_iff.mp hok
        obtain ⟨rfl, rfl⟩ := pure_eq_ok_iff.mp hok
        exact ⟨rfl, hforce, world.tree, by simp, fun _ => rfl, tree_of_change_ok hchange⟩

theorem removeFileIfThere_ok {removed : Bool} (hplain : world.tree.Plain)
    (hok : removeFileIfThere path world = .ok removed after) :
    Confined (.removesFile world.tree path) world.tree after.tree := by
  refine Keeps.of_ok (keeps_removeFileIfThere ?_) hok (.refl hplain)
  exact Change.confined_of_removesFile (Permit.transitive_removesFile _ _)
    fun content => ⟨rfl, ⟨content, rfl⟩, rfl⟩

/-- Nothing is left inside a directory that was removed. -/
theorem removeDirAllIfThere_ok {removed : Bool} (hplain : world.tree.Plain)
    (hok : removeDirAllIfThere path world = .ok removed after) :
    Confined (.removesAll world.tree path) world.tree after.tree ∧
      (world.tree.isDir path = true → ∀ place, world.tree.placeOf path <+: place →
        place ≠ world.tree.placeOf path → after.tree.entry? place = none) := by
  refine ⟨Keeps.of_ok (keeps_removeDirAllIfThere ?_) hok (.refl hplain),
    fun hdir place hinside hne => ?_⟩
  · exact Change.confined_of_removesAll (Permit.transitive_removesAll _ _)
      fun place old hinside hdir => ⟨hinside, hdir, rfl⟩
  · obtain ⟨tree, first, htree, hok⟩ := bind_eq_ok_iff.mp hok
    obtain ⟨rfl, rfl⟩ := EStateM.Result.ok.inj htree
    rw [if_pos hdir] at hok
    obtain ⟨⟨⟩, last, hremove, hok⟩ := bind_eq_ok_iff.mp hok
    obtain ⟨-, rfl⟩ := pure_eq_ok_iff.mp hok
    obtain ⟨location, hfind⟩ := isDir_iff.mp hdir
    exact Change.removeDirAll_ok hplain (tree_of_change_ok hremove)
      (entry?_of_find hplain.linkFree hfind).2 hinside hne

theorem createDir_ok (hplain : world.tree.Plain) (hok : createDir path world = .ok () after) :
    after.tree.Plain ∧ Extends world.tree after.tree := by
  have hlast := Change.extends_makeDirAll hplain path
  rwa [tree_of_change_ok hok] at hlast

/-- A file that is written goes to the place of its path, once there are the directories above it. -/
theorem put_of_writeUnlessThere {middle : FileTree} (hplain : world.tree.Plain)
    (hparent : ∀ parent, Path.parent? path = some parent →
      Change.makeDirAll parent world.tree = .ok () middle)
    (hnone : Path.parent? path = none → middle = world.tree)
    (hwrite : Change.writeFile path (.text content) middle = .ok () after.tree) :
    middle.Plain ∧ Extends world.tree middle ∧ world.tree.placeOf path ≠ [] ∧
      after.tree = middle.put (world.tree.placeOf path) (.file (.text content)) := by
  obtain ⟨hmiddle, hextends⟩ : middle.Plain ∧ Extends world.tree middle := by
    cases hpath : Path.parent? path with
    | some parent =>
        have hlast := Change.extends_makeDirAll hplain parent
        rwa [hparent parent hpath] at hlast
    | none =>
        rw [hnone hpath]
        exact ⟨hplain, .refl _⟩
  rw [← placeOf_congr hextends.workingDir path]
  exact ⟨hmiddle, hextends, placeOf_ne_nil_of_writeFile hmiddle.linkFree hwrite,
    ((writeFile_eq_ok_iff hmiddle.linkFree).mp hwrite).2.2⟩

/-- A file that is written holds the content. -/
theorem file_of_writeUnlessThere (hplain : world.tree.Plain)
    (hok : writeUnlessThere path content force world = .ok true after) :
    after.tree.entry? (world.tree.placeOf path) = some (.file (.text content)) := by
  rcases writeUnlessThere_cases hok with ⟨hskip, -⟩ | ⟨-, -, middle, hparent, hnone, hwrite⟩
  · cases hskip
  · obtain ⟨-, -, hroot, hput⟩ := put_of_writeUnlessThere hplain hparent hnone hwrite
    rw [hput, entry?_put hroot, if_pos rfl]

/-- A file that is not there is written. -/
theorem written_of_writeUnlessThere {written : Bool} (hplain : world.tree.Plain)
    (hok : writeUnlessThere path content force world = .ok written after)
    (hnew : force = true ∨ world.tree.entry? (world.tree.placeOf path) = none) : written = true := by
  rcases writeUnlessThere_cases hok with ⟨-, hholds, rfl, -⟩ | ⟨hwritten, -⟩
  · exact absurd (hnew.resolve_left Bool.false_ne_true) (entry?_of_holds hplain.linkFree hholds)
  · exact hwritten

/-- A file that is written in any case goes to the place of its path, once there are the directories
above it. -/
theorem writeUnlessThere_ok {written : Bool} (hplain : world.tree.Plain)
    (hok : writeUnlessThere path content true world = .ok written after) :
    ∃ middle, Extends world.tree middle ∧ world.tree.placeOf path ≠ [] ∧
      after.tree = middle.put (world.tree.placeOf path) (.file (.text content)) := by
  rcases writeUnlessThere_cases hok with ⟨-, -, hforce, -⟩ | ⟨-, -, middle, hparent, hnone, hwrite⟩
  · cases hforce
  · exact ⟨middle, (put_of_writeUnlessThere hplain hparent hnone hwrite).2⟩

/-- Afterwards something is there. -/
theorem there_of_writeUnlessThere {written : Bool} (hplain : world.tree.Plain)
    (hok : writeUnlessThere path content force world = .ok written after) :
    after.tree.entry? (world.tree.placeOf path) ≠ none := by
  rcases writeUnlessThere_cases hok with ⟨-, hholds, -, hafter⟩ | ⟨-, -, middle, hparent, hnone, hwrite⟩
  · rw [hafter]
    exact entry?_of_holds hplain.linkFree hholds
  · obtain ⟨-, -, hroot, hput⟩ := put_of_writeUnlessThere hplain hparent hnone hwrite
    rw [hput, entry?_put hroot, if_pos rfl]
    simp

/-- In a directory that is there a file is written if that is forced or if nothing is in its place. -/
theorem entry?_of_writeUnlessThere {dir name : Path} {written : Bool} (hplain : world.tree.Plain)
    (hname : Path.IsSegment name)
    (hdirs : world.tree.Passable (world.tree.startOf dir) dir.steps)
    (hok : writeUnlessThere (Path.join dir name) content force world = .ok written after) :
    after.tree.workingDir = world.tree.workingDir ∧
      after.tree.entry? (world.tree.placeOf (Path.join dir name)) =
        if force = true ∨ world.tree.entry? (world.tree.placeOf (Path.join dir name)) = none then
          some (.file (.text content))
        else world.tree.entry? (world.tree.placeOf (Path.join dir name)) := by
  rcases writeUnlessThere_cases hok with ⟨-, hholds, rfl, hafter⟩ |
    ⟨-, hforce, middle, hparent, hnone, hwrite⟩
  · have hthere := entry?_of_holds hplain.linkFree hholds
    rw [hafter, if_neg (by simp [hthere])]
    exact ⟨rfl, rfl⟩
  · obtain ⟨hmiddle, hextends, hroot, hput⟩ := put_of_writeUnlessThere hplain hparent hnone hwrite
    rw [hput, entry?_put hroot, if_pos rfl, if_pos]
    · exact ⟨hextends.workingDir, rfl⟩
    · refine or_iff_not_imp_right.mpr fun hthere => hforce ?_
      exact holds_join_of_writeFile hname hplain.linkFree hmiddle.linkFree hwrite hdirs hthere

theorem removeDirIfEmpty_ok {removed : Bool} (hplain : world.tree.Plain)
    (hok : removeDirIfEmpty path world = .ok removed after) : Sheds path world.tree after.tree := by
  obtain ⟨tree, first, htree, hok⟩ := bind_eq_ok_iff.mp hok
  obtain ⟨rfl, rfl⟩ := EStateM.Result.ok.inj htree
  split at hok
  · obtain ⟨listing, seen, hlook, hok⟩ := bind_eq_ok_iff.mp hok
    obtain ⟨-, rfl⟩ := look_eq_ok_iff.mp hlook
    split at hok
    · obtain ⟨⟨⟩, last, hchange, hok⟩ := bind_eq_ok_iff.mp hok
      obtain ⟨-, rfl⟩ := pure_eq_ok_iff.mp hok
      obtain ⟨hdir, -, herase⟩ := Change.removeDir_ok hplain.linkFree (tree_of_change_ok hchange)
      rw [herase]
      refine ⟨rfl, fun place entry hentry hne => ?_⟩
      refine (entry?_erase_of_ne fun hplace => ?_).trans hentry
      -- what stands there is the directory itself
      rw [hplace, hdir] at hentry
      exact hne (Option.some.inj hentry).symm hplace
    · obtain ⟨-, rfl⟩ := pure_eq_ok_iff.mp hok
      exact .refl path _
  · obtain ⟨-, rfl⟩ := pure_eq_ok_iff.mp hok
    exact .refl path _

end

end Run

end ServiceScaffold
