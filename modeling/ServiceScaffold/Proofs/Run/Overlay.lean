import ServiceScaffold.Proofs.FileTree.Sound
import ServiceScaffold.Proofs.Run.Copy

/-! # A directory laid over another

A copy of a directory lays what the directory holds over what the target holds, place by place: what the
directory holds decides, and what it does not hold stays. Besides the target only directories on the way to
it change, which are created where they are missing. As the entries of the directory stay while they are
copied, a copy once more finds everything in place.
-/

namespace ServiceScaffold

open FileTree

namespace Permit

/-- What is offered for a place may come to it: a directory where nothing was, a file where no directory
was. -/
def lays (dest : Location) (offer : List Text → Option Entry) : Permit := fun place old new =>
  ∃ names, place = dest ++ names ∧ new = offer names ∧
    (old = none ∧ new = some .dir ∨ old ≠ some .dir ∧ ∃ content, new = some (.file content))

theorem transitive_lays (dest : Location) (offer : List Text → Option Entry) :
    (lays dest offer).Transitive := by
  rintro place first second third ⟨names, hplace, -, hfirst⟩ ⟨others, hother, hoffer, hsecond⟩
  refine ⟨others, hother, hoffer, ?_⟩
  rcases hfirst with ⟨-, hdir⟩ | ⟨hdir, content, hfile⟩
  · -- a directory that came stays
    rcases hsecond with ⟨hnone, -⟩ | ⟨hnot, -⟩
    · rw [hdir] at hnone
      cases hnone
    · exact absurd hdir hnot
  · rcases hsecond with ⟨hnone, -⟩ | ⟨-, hthird⟩
    · rw [hfile] at hnone
      cases hnone
    · exact Or.inr ⟨hdir, hthird⟩

end Permit

namespace FileTree

variable {tree before after last : FileTree} {place dest : Location} {base source target : Path}
variable {names : List Text} {entry : Entry} {offer : List Text → Option Entry}

theorem Confined.dir_of_lays (hconfined : Confined (.lays dest offer) before after)
    (hdir : before.entry? place = some .dir) : after.entry? place = some .dir := by
  rcases hconfined.entries place with hsame | ⟨-, -, -, ⟨hnone, -⟩ | ⟨hnot, -⟩⟩
  · rw [hsame, hdir]
  · rw [hdir] at hnone
    cases hnone
  · exact absurd hdir hnot

/-- Names that are joined to a path can be followed to the last of them. -/
structure Followable (tree : FileTree) (base : Path) (names : List Text) : Prop where
  acceptable : Acceptable (Path.joinAll base names)
  last : ∃ front name, names = front ++ [name] ∧ Text.byteLength name ≤ longestName ∧
    tree.Passable (tree.startOf (Path.joinAll base front)) (Path.joinAll base front).steps

theorem Followable.locate {goal : Goal} (hfollowable : tree.Followable base names) (hfree : tree.LinkFree)
    (hnames : ∀ name ∈ names, Path.IsSegment name) :
    tree.locate goal (Path.joinAll base names) = .ok (tree.spotAt (tree.placeOf base ++ names)) := by
  have hplace : tree.placeOf (Path.joinAll base names) = tree.placeOf base ++ names :=
    placeOf_below ((Path.Below.refl base).joinAll hnames)
  obtain ⟨haccept, front, name, rfl, hshort, hdirs⟩ := hfollowable
  rw [← hplace]
  rw [Path.joinAll_concat] at haccept ⊢
  have hname := hnames name (by simp)
  exact (locate_join_eq_ok_iff hname hfree).mpr ⟨haccept, hdirs, hshort, by rw [placeOf_join hname]⟩

theorem Followable.find (hfollowable : tree.Followable base names) (hfree : tree.LinkFree)
    (hnames : ∀ name ∈ names, Path.IsSegment name)
    (hentry : tree.entry? (tree.placeOf base ++ names) = some entry) :
    tree.find (Path.joinAll base names) = .ok (tree.placeOf base ++ names, entry) := by
  rw [find_eq_ok_iff, hfollowable.locate hfree hnames, spotAt, hentry]

theorem Followable.mono (hfollowable : before.Followable base names)
    (hworking : after.workingDir = before.workingDir)
    (hdirs : ∀ place, before.entry? place = some .dir → after.entry? place = some .dir) :
    after.Followable base names := by
  obtain ⟨haccept, front, name, hnames, hshort, hpassable⟩ := hfollowable
  refine ⟨haccept, front, name, hnames, hshort, ?_⟩
  rw [startOf_congr hworking]
  exact hpassable.mono hdirs

/-- A path that leads somewhere was followed along its names. -/
theorem followable_of_locate {goal : Goal} {spot : Spot} (hfree : tree.LinkFree) (hne : names ≠ [])
    (hnames : ∀ name ∈ names, Path.IsSegment name)
    (hlocate : tree.locate goal (Path.joinAll base names) = .ok spot) : tree.Followable base names := by
  obtain rfl | ⟨front, name, rfl⟩ := List.eq_nil_or_concat' names
  · exact absurd rfl hne
  · rw [Path.joinAll_concat, locate_join_eq_ok_iff (hnames name (by simp)) hfree] at hlocate
    obtain ⟨haccept, hdirs, hshort, -⟩ := hlocate
    exact ⟨by rwa [Path.joinAll_concat], front, name, rfl, hshort, hdirs⟩

/-! ## Laying one place over another -/

/-- What changed came to the place of the target from the place of the source. -/
def Lays (source target : Path) (before after : FileTree) : Prop :=
  Confined (.lays (before.placeOf target) fun names => before.entry? (before.placeOf source ++ names))
    before after

/-- Neither of the places is inside the other. -/
def ApartAt (tree : FileTree) (source target : Path) : Prop :=
  ∀ names more, tree.placeOf source ++ names ≠ tree.placeOf target ++ more

theorem apartAt_of_not_prefix (hsource : ¬ tree.placeOf source <+: tree.placeOf target)
    (htarget : ¬ tree.placeOf target <+: tree.placeOf source) : tree.ApartAt source target := by
  intro names more heq
  rcases List.prefix_or_prefix_of_prefix (List.prefix_append _ names) (heq ▸ List.prefix_append _ more) with
    hprefix | hprefix
  · exact hsource hprefix
  · exact htarget hprefix

theorem ApartAt.congr (hapart : before.ApartAt source target)
    (hworking : after.workingDir = before.workingDir) : after.ApartAt source target := by
  unfold ApartAt
  rw [placeOf_congr hworking, placeOf_congr hworking]
  exact hapart

/-- What the source holds stays. -/
theorem Lays.held_eq (hlays : Lays source target before after) (hapart : before.ApartAt source target)
    (names : List Text) :
    after.entry? (after.placeOf source ++ names) = before.entry? (before.placeOf source ++ names) := by
  rw [hlays.placeOf_eq]
  exact hlays.entry?_eq fun ⟨more, hplace, _⟩ => hapart names more hplace

theorem Lays.trans (hapart : before.ApartAt source target) (hfirst : Lays source target before after)
    (hsecond : Lays source target after last) : Lays source target before last := by
  refine Confined.trans (Permit.transitive_lays _ _) hfirst ?_
  unfold Lays at hsecond
  simp only [hfirst.held_eq hapart] at hsecond
  rwa [hfirst.placeOf_eq] at hsecond

/-- What is put where no directory is, with what the source holds for its place, is laid there. -/
theorem lays_put {content : Content} (hplain : (tree.put (tree.placeOf target ++ names) (.file content)).Plain)
    (hroot : tree.placeOf target ++ names ≠ [])
    (hdir : tree.entry? (tree.placeOf target ++ names) ≠ some .dir)
    (hheld : tree.entry? (tree.placeOf source ++ names) = some (.file content)) :
    Lays source target tree (tree.put (tree.placeOf target ++ names) (.file content)) := by
  refine ⟨hplain, put_workingDir .., fun place => ?_⟩
  rw [entry?_put hroot]
  split
  next hplace =>
    subst hplace
    exact Or.inr ⟨names, rfl, hheld.symm, Or.inr ⟨hdir, content, rfl⟩⟩
  · exact Or.inl rfl

/-- An entry of the source stands in the target, and it can be copied again. -/
structure Brought (source target : Path) (tree : FileTree) (names : List Text) (entry : Entry) : Prop where
  held : tree.entry? (tree.placeOf source ++ names) = some entry
  brought : tree.entry? (tree.placeOf target ++ names) = some entry
  followable : tree.Followable target names
  heldFollowable : entry ≠ .dir → tree.Followable source names

theorem Brought.mono (hbrought : Brought source target before names entry)
    (hapart : before.ApartAt source target) (hlays : Lays source target before after) :
    Brought source target after names entry where
  held := (hlays.held_eq hapart names).trans hbrought.held
  brought := by
    rw [hlays.placeOf_eq]
    rcases hlays.entries (before.placeOf target ++ names) with hsame | ⟨others, hplace, hoffer, -⟩
    · exact hsame.trans hbrought.brought
    · rw [hoffer, ← List.append_cancel_left hplace]
      exact hbrought.held
  followable := hbrought.followable.mono hlays.workingDir fun _ => hlays.dir_of_lays
  heldFollowable := fun hdir => (hbrought.heldFollowable hdir).mono hlays.workingDir fun _ => hlays.dir_of_lays

/-- The names of an entry are ordinary ones, and one of them is the last. -/
theorem Plain.exists_concat (hplain : tree.Plain) {place : Location} (hne : names ≠ [])
    (hentry : tree.entry? (place ++ names) = some entry) :
    (∀ name ∈ names, Path.IsSegment name) ∧ ∃ front name, names = front ++ [name] ∧ Path.IsSegment name := by
  have hnames : ∀ name ∈ names, Path.IsSegment name := fun name hname =>
    hplain.names _ (mem_entries (by simp [hne]) hentry) name (List.mem_append_right _ hname)
  obtain hnil | ⟨front, name, rfl⟩ := List.eq_nil_or_concat' names
  · exact absurd hnil hne
  · exact ⟨hnames, front, name, rfl, hnames name (by simp)⟩

end FileTree

/-! ## Copying an entry -/

/-- A file that was copied is copied once more without a change. -/
theorem Change.copyFile_again {tree : FileTree} {source base : Path} {names : List Text} {content : Content}
    (hfree : tree.LinkFree) (hnames : ∀ name ∈ names, Path.IsSegment name)
    (hsource : tree.find source = .ok (tree.placeOf source, .file content))
    (hfollowable : tree.Followable base names) (hne : tree.placeOf source ≠ tree.placeOf base ++ names)
    (hentry : tree.entry? (tree.placeOf base ++ names) = some (.file content)) :
    Change.copyFile source (Path.joinAll base names) tree = .ok () tree := by
  have hbelow : Path.Below base names (Path.joinAll base names) := (Path.Below.refl base).joinAll hnames
  have hplace : tree.placeOf (Path.joinAll base names) = tree.placeOf base ++ names := placeOf_below hbelow
  have hroot : tree.placeOf base ++ names ≠ [] := by
    intro hnil
    rw [hnil] at hentry
    cases hentry
  have hempty : Change.writeFile (Path.joinAll base names) (.text []) tree = .ok () _ :=
    (writeFile_eq_ok_iff hfree).mpr ⟨⟨_, hfollowable.locate hfree hnames⟩, by simp [hplace, hentry], rfl⟩
  rw [hplace] at hempty
  -- the target is emptied first, and what is behind the source is still there
  generalize hemptied : tree.put (tree.placeOf base ++ names) (.file (.text [])) = emptied at hempty
  have hentries (place : Location) : emptied.entry? place =
      if place = tree.placeOf base ++ names then some (.file (.text [])) else tree.entry? place := by
    rw [← hemptied, entry?_put hroot]
  have hworking : emptied.workingDir = tree.workingDir := by rw [← hemptied, put_workingDir]
  have hagain : Change.writeFile (Path.joinAll base names) content emptied = .ok () tree := by
    have hemptiedFree : emptied.LinkFree := hemptied ▸ hfree.put (by simp)
    have hfollowableAgain : emptied.Followable base names := by
      refine hfollowable.mono hworking fun place hdir => ?_
      rw [hentries, if_neg, hdir]
      rintro rfl
      rw [hentry] at hdir
      cases hdir
    rw [writeFile_eq_ok_iff hemptiedFree, placeOf_congr hworking, hplace]
    refine ⟨⟨_, hfollowableAgain.locate hemptiedFree hnames⟩, by simp [hentries], ?_⟩
    rw [← hemptied, put_put, put_eq_self hroot hentry]
  rw [Change.copyFile, hsource]
  dsimp only
  rw [hempty]
  dsimp only
  rw [hentries, if_neg hne, (entry?_of_find hfree hsource).2]
  exact hagain

namespace Run

variable {source target : Path} {world after : World} {names : List Text} {entry : Entry} {count : Nat}

/-- A directory comes to the target. -/
theorem copyEntry_dir_ok (hsound : world.tree.Sound) (hne : names ≠ [])
    (hreached : world.tree.Passable (world.tree.startOf target) target.steps)
    (hheld : world.tree.entry? (world.tree.placeOf source ++ names) = some .dir)
    (hok : copyEntry source target (names, .dir) world = .ok count after) :
    Lays source target world.tree after.tree ∧ after.tree.Sound ∧ count = 0 ∧
      after.tree.entry? (world.tree.placeOf target ++ names) = some .dir ∧
      after.tree.Followable target names := by
  obtain ⟨hnames, front, name, hconcat, hname⟩ := hsound.plain.exists_concat hne hheld
  have hbelow : Path.Below target names (copyPath target names) :=
    (Path.Below.refl target).join_intercalate hnames
  obtain ⟨⟨⟩, created, hcreate, hok⟩ := bind_eq_ok_iff.mp hok
  obtain ⟨rfl, rfl⟩ := pure_eq_ok_iff.mp hok
  have hmake : Change.makeDirAll (copyPath target names) world.tree = .ok () created.tree :=
    tree_of_change_ok hcreate
  have hcreated : Confined (.creates world.tree (copyPath target names)) world.tree created.tree := by
    have hlast := Change.confined_makeDirAll hsound.plain (copyPath target names)
    rwa [hmake] at hlast
  have hmade : created.tree.Sound := (Change.keeps_sound_makeDirAll _).of_ok hmake hsound
  have hpassable := Change.passable_of_makeDirAll hsound.plain hmake
  have hplace : created.tree.placeOf (copyPath target names) = world.tree.placeOf target ++ names := by
    rw [placeOf_below hbelow, placeOf_congr hcreated.workingDir]
  refine ⟨⟨hcreated.plain, hcreated.workingDir, fun place => ?_⟩, hmade, rfl, ?_, ?_⟩
  · -- the target is there, and what is created inside it stands above the entry
    refine (hcreated.entries place).imp_right fun ⟨hpasses, hvacant, hdir⟩ => ?_
    rcases hpasses.of_below hbelow with hway | ⟨upper, hupper, rfl⟩
    · rw [entry?_of_passes hreached hway] at hvacant
      cases hvacant
    · have hheldUpper := hsound.wellFormed.grounded hheld _ ((List.prefix_append_right_inj _).mpr hupper)
      exact ⟨upper, rfl, hdir.trans hheldUpper.symm, Or.inl ⟨hvacant, hdir⟩⟩
  · rw [← hplace]
    exact hmade.entry?_of_passable hpassable
  · have hpath : copyPath target names = Path.joinAll target names :=
      Path.join_intercalate_eq hnames hne target
    rw [hpath, hconcat, Path.joinAll_concat] at hmake hpassable
    obtain ⟨hdirs, hshort, -⟩ := (passable_join_iff hname).mp hpassable
    refine ⟨?_, front, name, hconcat, hshort, hdirs⟩
    rw [hconcat, Path.joinAll_concat]
    exact Change.acceptable_of_makeDirAll_join hname hmake

/-- A file comes to the target. -/
theorem copyEntry_file_ok {content : Content} (hsound : world.tree.Sound)
    (hapart : world.tree.ApartAt source target) (hne : names ≠ [])
    (hheld : world.tree.entry? (world.tree.placeOf source ++ names) = some (.file content))
    (hok : copyEntry source target (names, .file content) world = .ok count after) :
    Lays source target world.tree after.tree ∧ after.tree.Sound ∧ count = 1 ∧
      after.tree.entry? (world.tree.placeOf target ++ names) = some (.file content) ∧
      after.tree.Followable target names ∧ world.tree.Followable source names := by
  obtain ⟨hnames, front, name, hconcat, hname⟩ := hsound.plain.exists_concat hne hheld
  have hpath : copyPath target names = Path.joinAll target names :=
    Path.join_intercalate_eq hnames hne target
  obtain ⟨⟨⟩, copied, hcopy, hok⟩ := bind_eq_ok_iff.mp hok
  obtain ⟨rfl, rfl⟩ := pure_eq_ok_iff.mp hok
  have hdone : Change.copyFile (Path.joinAll source names) (copyPath target names) world.tree =
      .ok () copied.tree := tree_of_change_ok hcopy
  have hplace : world.tree.placeOf (copyPath target names) = world.tree.placeOf target ++ names :=
    placeOf_below ((Path.Below.refl target).join_intercalate hnames)
  have hheldPlace : world.tree.placeOf (Path.joinAll source names) = world.tree.placeOf source ++ names :=
    placeOf_below ((Path.Below.refl source).joinAll hnames)
  have hfree := hsound.plain.linkFree
  obtain ⟨found, hfind, ⟨spot, hlocate⟩, hdir, hroot, hput⟩ := Change.put_of_copyFile hsound.plain
    (by rw [hplace, hheldPlace]; exact hapart names names) hdone
  -- what was found is what was listed
  obtain rfl : found = content := by
    have hfound := (entry?_of_find hfree hfind).2
    rw [hheldPlace, hheld] at hfound
    cases hfound
    rfl
  have hafter : copied.tree.Sound := by
    rw [hpath, hconcat, Path.joinAll_concat target] at hdone
    exact (Change.keeps_sound_copyFile hname _).of_ok hdone hsound
  rw [hplace] at hput hroot hdir
  have hlays : Lays source target world.tree copied.tree :=
    hput ▸ lays_put (hput ▸ hafter.plain) hroot hdir hheld
  refine ⟨hlays, hafter, rfl, ?_, ?_, ?_⟩
  · rw [hput, entry?_put hroot, if_pos rfl]
  · have hfollowable : world.tree.Followable target names :=
      followable_of_locate hfree hne hnames (hpath ▸ hlocate)
    exact hfollowable.mono hlays.workingDir fun _ => hlays.dir_of_lays
  · exact followable_of_locate hfree hne hnames (find_eq_ok_iff.mp hfind)

/-- Whatever an entry is, it comes to the target. -/
theorem brought_of_copyEntry (hsound : world.tree.Sound) (hapart : world.tree.ApartAt source target)
    (hreached : world.tree.Passable (world.tree.startOf target) target.steps) (hne : names ≠ [])
    (hheld : world.tree.entry? (world.tree.placeOf source ++ names) = some entry)
    (hok : copyEntry source target (names, entry) world = .ok count after) :
    Lays source target world.tree after.tree ∧ after.tree.Sound ∧
      Brought source target after.tree names entry ∧ count = if entry.isFile then 1 else 0 := by
  cases entry with
  | dir =>
      obtain ⟨hlays, hafter, rfl, hbrought, hto⟩ := copyEntry_dir_ok hsound hne hreached hheld hok
      rw [← hlays.held_eq hapart] at hheld
      rw [← hlays.placeOf_eq] at hbrought
      exact ⟨hlays, hafter, ⟨hheld, hbrought, hto, fun hdir => absurd rfl hdir⟩, rfl⟩
  | file content =>
      obtain ⟨hlays, hafter, rfl, hbrought, hto, hfrom⟩ := copyEntry_file_ok hsound hapart hne hheld hok
      rw [← hlays.held_eq hapart] at hheld
      rw [← hlays.placeOf_eq] at hbrought
      refine ⟨hlays, hafter, ⟨hheld, hbrought, hto, fun _ => ?_⟩, rfl⟩
      exact hfrom.mono hlays.workingDir fun _ => hlays.dir_of_lays
  | link path => exact absurd hheld (hsound.plain.linkFree.entry?_ne_link _ path)

/-- All listed entries come to the target, whichever of them come later. -/
theorem brought_of_copyEntries {entries : List (Location × Entry)} (hsound : world.tree.Sound)
    (hapart : world.tree.ApartAt source target)
    (hreached : world.tree.Passable (world.tree.startOf target) target.steps)
    (hlisted : ∀ entry ∈ entries, entry.1 ≠ [] ∧
      world.tree.entry? (world.tree.placeOf source ++ entry.1) = some entry.2)
    (hok : copyEntries source target entries world = .ok count after) :
    Lays source target world.tree after.tree ∧ after.tree.Sound ∧
      (∀ entry ∈ entries, Brought source target after.tree entry.1 entry.2) ∧
      count = entries.countP fun entry => entry.2.isFile := by
  induction entries generalizing world count with
  | nil =>
      obtain ⟨rfl, rfl⟩ := pure_eq_ok_iff.mp hok
      exact ⟨.refl hsound.plain, hsound, List.forall_mem_nil _, rfl⟩
  | cons entry entries ih =>
      obtain ⟨⟨hne, hheld⟩, hrest⟩ := List.forall_mem_cons.mp hlisted
      obtain ⟨first, middle, hfirst, hok⟩ := bind_eq_ok_iff.mp hok
      obtain ⟨others, last, hothers, hok⟩ := bind_eq_ok_iff.mp hok
      obtain ⟨rfl, rfl⟩ := pure_eq_ok_iff.mp hok
      obtain ⟨hlays, hmiddle, hbrought, hfirstCount⟩ :=
        brought_of_copyEntry hsound hapart hreached hne hheld hfirst
      have hmiddleApart := hapart.congr hlays.workingDir
      have hmiddleReached : middle.tree.Passable (middle.tree.startOf target) target.steps := by
        rw [startOf_congr hlays.workingDir]
        exact hreached.mono fun _ => hlays.dir_of_lays
      obtain ⟨hlater, hlast, hall, hcount⟩ := ih hmiddle hmiddleApart hmiddleReached
        (fun other hother => ⟨(hrest other hother).1,
          (hlays.held_eq hapart _).trans (hrest other hother).2⟩) hothers
      refine ⟨hlays.trans hapart hlater, hlast,
        List.forall_mem_cons.mpr ⟨hbrought.mono hmiddleApart hlater, hall⟩, ?_⟩
      rw [hfirstCount, hcount, List.countP_cons, Nat.add_comm]

/-! ## Copying once more -/

theorem change_of_self {α : Type} {operation : Change α} {value : α} (blame : Fault → Failure)
    (hself : operation world.tree = .ok value world.tree) :
    change blame operation world = .ok value world := by
  rw [change, hself]

/-- An entry that was brought is brought once more without a change. -/
theorem copyEntry_again (hsound : world.tree.Sound) (hapart : world.tree.ApartAt source target)
    (hbrought : Brought source target world.tree names entry) :
    copyEntry source target (names, entry) world = .ok (if entry.isFile then 1 else 0) world := by
  have hfree := hsound.plain.linkFree
  obtain ⟨hheld, hthere, hfollowable, hfrom⟩ := hbrought
  obtain ⟨front, name, hconcat, -⟩ := hfollowable.last
  have hne : names ≠ [] := by simp [hconcat]
  have hnames := (hsound.plain.exists_concat hne hheld).1
  have hpath : copyPath target names = Path.joinAll target names := Path.join_intercalate_eq hnames hne target
  cases entry with
  | dir =>
      have hmake : Change.makeDirAll (copyPath target names) world.tree = .ok () world.tree := by
        rw [hpath]
        exact Change.makeDirAll_of_isDir hfree (isDir_iff.mpr ⟨_, hfollowable.find hfree hnames hthere⟩)
      exact bind_of_ok (change_of_self _ hmake) _
  | file content =>
      have hplace : world.tree.placeOf (Path.joinAll source names) = world.tree.placeOf source ++ names :=
        placeOf_below ((Path.Below.refl source).joinAll hnames)
      have hcopy : Change.copyFile (Path.joinAll source names) (copyPath target names) world.tree =
          .ok () world.tree := by
        rw [hpath]
        refine Change.copyFile_again hfree hnames ?_ hfollowable (hplace ▸ hapart names names) hthere
        exact hplace ▸ (hfrom (by simp)).find hfree hnames hheld
      rw [copyEntry_of_ne_dir (by simp), bind_of_ok (change_of_self _ hcopy)]
      rfl
  | link path => exact absurd hheld (hfree.entry?_ne_link _ path)

theorem copyEntries_again {entries : List (Location × Entry)} (hsound : world.tree.Sound)
    (hapart : world.tree.ApartAt source target)
    (hbrought : ∀ entry ∈ entries, Brought source target world.tree entry.1 entry.2) :
    copyEntries source target entries world = .ok (entries.countP fun entry => entry.2.isFile) world := by
  induction entries with
  | nil => rfl
  | cons entry entries ih =>
      obtain ⟨hentry, hrest⟩ := List.forall_mem_cons.mp hbrought
      rw [copyEntries, bind_of_ok (copyEntry_again hsound hapart hentry), bind_of_ok (ih hrest),
        List.countP_cons, Nat.add_comm]
      rfl

end Run

/-! ## The directory as a whole -/

namespace FileTree

variable {before made after : FileTree} {source target : Path} {count : Nat}

/-- A directory was copied: its target was created where it was missing, and then all that stood inside the
directory was brought. -/
structure DirCopied (source target : Path) (count : Nat) (before made after : FileTree) : Prop where
  created : Confined (.creates before target) before made
  madeSound : made.Sound
  reached : made.Passable (made.startOf target) target.steps
  lays : Lays source target made after
  sound : after.Sound
  brought : ∀ names entry, names ≠ [] → made.entry? (made.placeOf source ++ names) = some entry →
    Brought source target after names entry
  count : count = (made.regularFiles (made.placeOf source)).length
  targetAgain : Change.makeDirAll (Run.copyPath target []) after = .ok () after

/-- What is found is what was expected, unless nothing was and a directory was created. -/
def OrCreated (created : Prop) (expected found : Option Entry) : Prop :=
  found = expected ∨ created ∧ expected = none ∧ found = some .dir

theorem OrCreated.eq_some {created : Prop} {found : Option Entry} {entry : Entry}
    (hfound : OrCreated created (some entry) found) : found = some entry := by
  rcases hfound with hsame | ⟨-, hnone, -⟩
  · exact hsame
  · cases hnone

theorem OrCreated.mono {created others : Prop} {expected found : Option Entry}
    (hfound : OrCreated created expected found) (hcreated : created → others) :
    OrCreated others expected found :=
  hfound.imp_right (And.imp_left hcreated)

/-- A directory was laid over a target. The `way` are the places where directories may have been created for
the target. -/
structure LaidOver (way : Location → Prop) (source target : Path) (before after : FileTree) : Prop where
  /-- Each entry of the source stands in the target. -/
  brought : ∀ names entry, before.entry? (before.placeOf source ++ names) = some entry →
    after.entry? (before.placeOf target ++ names) = some entry
  /-- Whatever else the target holds is what it held. -/
  kept : ∀ names, before.entry? (before.placeOf source ++ names) = none →
    OrCreated (way (before.placeOf target ++ names) ∨ way (before.placeOf source ++ names))
      (before.entry? (before.placeOf target ++ names)) (after.entry? (before.placeOf target ++ names))
  /-- The source holds what it held. -/
  source : ∀ names, OrCreated (way (before.placeOf source ++ names))
    (before.entry? (before.placeOf source ++ names)) (after.entry? (before.placeOf source ++ names))
  /-- So does everything outside the target. -/
  outside : ∀ place, ¬ before.placeOf target <+: place →
    OrCreated (way place) (before.entry? place) (after.entry? place)

theorem Confined.orCreated {path : Path} (hcreated : Confined (.creates before path) before made)
    (place : Location) : OrCreated (before.Passes path place) (before.entry? place) (made.entry? place) :=
  hcreated.entries place

/-- One entry is a file and the other one a directory. -/
def Clash : Option Entry → Option Entry → Prop
  | some .dir, some (.file _) => True
  | some (.file _), some .dir => True
  | _, _ => False

namespace DirCopied

variable (hcopied : DirCopied source target count before made after)

include hcopied

theorem entry?_target (hsource : before.entry? (before.placeOf source) = some .dir) {names : List Text}
    {entry : Entry} (hentry : before.entry? (before.placeOf source ++ names) = some entry) :
    after.entry? (before.placeOf target ++ names) = some entry := by
  have hplace := hcopied.created.placeOf_eq
  by_cases hne : names = []
  · -- the source itself is a directory, and so is the target once it was created
    rw [hne, List.append_nil, hsource] at hentry
    obtain rfl := Option.some.inj hentry
    have htarget := hcopied.lays.dir_of_lays (hcopied.madeSound.entry?_of_passable hcopied.reached)
    rwa [hplace, ← List.append_nil (before.placeOf target), ← hne] at htarget
  · have hmade := hcopied.created.orCreated (before.placeOf source ++ names)
    rw [hentry] at hmade
    rw [← hplace] at hmade
    have hbrought := (hcopied.brought names entry hne hmade.eq_some).brought
    rwa [hcopied.lays.placeOf_eq, hplace] at hbrought

/-- Where the source held nothing, only a directory that was created can have been brought. -/
theorem entry?_target_of_none {names : List Text}
    (hnone : before.entry? (before.placeOf source ++ names) = none) :
    OrCreated (before.Passes target (before.placeOf target ++ names) ∨
        before.Passes target (before.placeOf source ++ names))
      (before.entry? (before.placeOf target ++ names)) (after.entry? (before.placeOf target ++ names)) := by
  have hplace := hcopied.created.placeOf_eq
  have hcreated := hcopied.created.orCreated
  rcases hcopied.lays.entries (before.placeOf target ++ names) with hsame | ⟨others, hothers, hoffer, hlaid⟩
  · rw [hsame]
    exact (hcreated _).mono Or.inl
  · rw [hplace] at hothers
    obtain rfl := List.append_cancel_left hothers
    rw [hplace] at hoffer
    dsimp only at hoffer
    rcases hcreated (before.placeOf source ++ names) with hheld | ⟨hway, -, hdir⟩
    · rw [hheld, hnone] at hoffer
      rw [hoffer] at hlaid
      rcases hlaid with ⟨-, hdir⟩ | ⟨-, content, hfile⟩
      · cases hdir
      · cases hfile
    · rw [hdir] at hoffer
      refine Or.inr ⟨Or.inr hway, ?_, hoffer⟩
      rcases hlaid with ⟨hvacant, -⟩ | ⟨-, content, hfile⟩
      · rcases hcreated (before.placeOf target ++ names) with hsame | ⟨-, hnone, -⟩
        · exact hsame.symm.trans hvacant
        · exact hnone
      · rw [hoffer] at hfile
        cases hfile

theorem laidOver (hsource : before.entry? (before.placeOf source) = some .dir)
    (hapart : before.ApartAt source target) :
    LaidOver (before.Passes target) source target before after := by
  have hplace := hcopied.created.placeOf_eq
  refine ⟨fun names entry => hcopied.entry?_target hsource, fun names => hcopied.entry?_target_of_none,
    fun names => ?_, fun place hoff => ?_⟩
  · have hheld := hcopied.lays.held_eq (hapart.congr hcopied.created.workingDir) names
    rw [hcopied.lays.placeOf_eq, hplace] at hheld
    rw [hheld]
    exact hcopied.created.orCreated _
  · have hsame : after.entry? place = made.entry? place := by
      refine hcopied.lays.entry?_eq fun ⟨names, hinside, _⟩ => hoff ?_
      rw [hinside, hplace]
      exact List.prefix_append _ _
    rw [hsame]
    exact hcopied.created.orCreated _

/-- As many files were copied as the source held. -/
theorem count_eq (hsound : before.Sound) : count = (before.regularFiles (before.placeOf source)).length := by
  rw [hcopied.count, hcopied.created.placeOf_eq]
  refine hsound.length_regularFiles_eq hcopied.madeSound fun names content => ?_
  rcases hcopied.created.orCreated (before.placeOf source ++ names) with hsame | ⟨-, hnone, hdir⟩
  · rw [hsame]
  · rw [hnone, hdir]
    simp

/-- No directory comes in place of a file, and no file in place of a directory. -/
theorem not_clash (hsource : before.entry? (before.placeOf source) = some .dir)
    (hapart : before.ApartAt source target) (names : List Text) :
    ¬ Clash (before.entry? (before.placeOf source ++ names))
      (before.entry? (before.placeOf target ++ names)) := by
  intro hclash
  have hlaid := hcopied.laidOver hsource hapart
  have hmade := hcopied.created.orCreated (before.placeOf target ++ names)
  unfold Clash at hclash
  split at hclash
  next content hheld hthere =>
    have hbrought := hlaid.brought names .dir hheld
    rw [hthere] at hmade
    rcases hcopied.lays.entries (before.placeOf target ++ names) with hsame | ⟨-, -, -, hchanged⟩
    · rw [hbrought, hmade.eq_some] at hsame
      cases hsame
    · rw [hbrought, hmade.eq_some] at hchanged
      simp at hchanged
  next content hheld hthere =>
    have hbrought := hlaid.brought names (.file content) hheld
    rw [hthere] at hmade
    rw [hcopied.lays.dir_of_lays hmade.eq_some] at hbrought
    cases hbrought
  next => exact hclash

/-- The directory is there, and once more nothing is left to do. -/
theorem isDir_again (hsound : before.Sound) (hdir : before.isDir source = true) :
    after.isDir source = true := by
  obtain ⟨haccept, hpassable⟩ := hsound.isDir_iff.mp hdir
  refine hcopied.sound.isDir_iff.mpr ⟨haccept, ?_⟩
  rw [startOf_congr hcopied.lays.workingDir, startOf_congr hcopied.created.workingDir]
  refine hpassable.mono fun place hplace => hcopied.lays.dir_of_lays ?_
  have hmade := hcopied.created.orCreated place
  rw [hplace] at hmade
  exact hmade.eq_some

end DirCopied

end FileTree

namespace Run

variable {source target : Path} {world after : World} {count : Nat}

theorem exists_dirCopied (hsound : world.tree.Sound) (hapart : world.tree.ApartAt source target)
    (hdir : world.tree.isDir source = true) (hok : copyDir source target world = .ok count after) :
    ∃ made, DirCopied source target count world.tree made after.tree := by
  obtain ⟨made, hmade, hok⟩ := (copyDir_eq_ok_iff hsound.plain.linkFree hdir).mp hok
  have hmake : Change.makeDirAll (copyPath target []) world.tree = .ok () made.tree := tree_of_change_ok hmade
  have hbelow : Path.Below target [] (copyPath target []) :=
    (Path.Below.refl target).join_intercalate (List.forall_mem_nil _)
  have hsteps : (copyPath target []).steps = target.steps := by
    rw [hbelow.steps, List.map_nil, List.append_nil]
  have hstart (tree : FileTree) : tree.startOf (copyPath target []) = tree.startOf target :=
    startOf_below hbelow
  have hcreated : Confined (.creates world.tree target) world.tree made.tree := by
    have hlast := Change.confined_makeDirAll hsound.plain (copyPath target [])
    rw [hmake] at hlast
    refine hlast.mono fun place old new hcreates => ⟨?_, hcreates.2⟩
    have hpasses := hcreates.1
    rwa [Passes, hsteps, hstart] at hpasses
  have hmadeSound : made.tree.Sound := (Change.keeps_sound_makeDirAll _).of_ok hmake hsound
  have hreached := Change.passable_of_makeDirAll hsound.plain hmake
  rw [hsteps, hstart] at hreached
  rw [← hcreated.placeOf_eq] at hok
  obtain ⟨hlays, hafter, hbrought, hcount⟩ := brought_of_copyEntries hmadeSound
    (hapart.congr hcreated.workingDir) hreached (fun entry hentry => hmadeSound.mem_inside_iff.mp hentry) hok
  refine ⟨made.tree, hcreated, hmadeSound, hreached, hlays, hafter, fun names entry hne hentry => ?_, ?_, ?_⟩
  · exact hbrought (names, entry) (hmadeSound.mem_inside_iff.mpr ⟨hne, hentry⟩)
  · rw [hcount, regularFiles, List.length_map, List.countP_eq_length_filter]
  · exact Change.makeDirAll_again hsound.plain hafter hmake hlays.workingDir fun _ => hlays.dir_of_lays

/-- A directory that was copied is copied once more without a change. -/
theorem copyDir_again {before made : FileTree} (hcopied : DirCopied source target count before made world.tree)
    (hapart : made.ApartAt source target) (hdir : world.tree.isDir source = true) :
    copyDir source target world = .ok count world := by
  have hsound := hcopied.sound
  have hworldApart := hapart.congr hcopied.lays.workingDir
  have hmade (names : List Text) := hcopied.lays.held_eq hapart names
  have hbrought : ∀ entry ∈ world.tree.inside (world.tree.placeOf source),
      Brought source target world.tree entry.1 entry.2 := by
    intro entry hentry
    obtain ⟨hne, hheld⟩ := hsound.mem_inside_iff.mp hentry
    exact hcopied.brought _ _ hne ((hmade _).symm.trans hheld)
  have hcount : (world.tree.regularFiles (world.tree.placeOf source)).length = count := by
    rw [hcopied.count]
    exact hcopied.madeSound.length_regularFiles_eq hsound fun names content => by rw [hmade]
  have htree : tree world = .ok world.tree world := rfl
  have hcreate : createDir (copyPath target []) world = .ok () world :=
    change_of_self _ hcopied.targetAgain
  rw [copyDir_of_isDir hsound.plain.linkFree hdir, bind_of_ok hcreate, bind_of_ok htree,
    copyEntries_again hsound hworldApart hbrought, ← hcount, regularFiles, List.length_map,
    List.countP_eq_length_filter]

/-- A copy of what is no directory does nothing. A copy of a directory that succeeds counts its files, lays
it over the target and would not change anything if it were made once more; it fails if a file and a
directory are in each other's place. -/
theorem copyDir_law (hsound : world.tree.Sound)
    (hsource : ¬ world.tree.placeOf source <+: world.tree.placeOf target)
    (htarget : ¬ world.tree.placeOf target <+: world.tree.placeOf source) :
    (world.tree.isDir source = false → copyDir source target world = .ok 0 world) ∧
      (world.tree.isDir source = true →
        (∀ count after, copyDir source target world = .ok count after →
          count = (world.tree.regularFiles (world.tree.placeOf source)).length ∧
          LaidOver (world.tree.Passes target) source target world.tree after.tree ∧
          copyDir source target after = .ok count after) ∧
        ∀ names, Clash (world.tree.entry? (world.tree.placeOf source ++ names))
            (world.tree.entry? (world.tree.placeOf target ++ names)) →
          ∃ failure after, copyDir source target world = .error failure after) := by
  have hapart := apartAt_of_not_prefix hsource htarget
  refine ⟨fun hnot => copyDir_of_not_isDir (by simp [hnot]) target, fun hdir => ?_⟩
  have hheld : world.tree.entry? (world.tree.placeOf source) = some .dir :=
    hsound.entry?_of_passable (hsound.isDir_iff.mp hdir).2
  refine ⟨fun count after hok => ?_, fun names hclash => ?_⟩
  · obtain ⟨made, hcopied⟩ := exists_dirCopied hsound hapart hdir hok
    exact ⟨hcopied.count_eq hsound, hcopied.laidOver hheld hapart,
      copyDir_again hcopied (hapart.congr hcopied.created.workingDir) (hcopied.isDir_again hsound hdir)⟩
  · cases hrun : copyDir source target world with
    | error failure after => exact ⟨failure, after, rfl⟩
    | ok count after =>
        obtain ⟨made, hcopied⟩ := exists_dirCopied hsound hapart hdir hrun
        exact absurd hclash (hcopied.not_clash hheld hapart names)

/-- A directory that holds an empty directory and files, and a target that holds some of them already. -/
def overlappingDirs : FileTree :=
  ⟨[], [(["d"], .dir), (["d", "b"], .file (.text "old")), (["d", "z"], .file (.text "other")),
    (["s"], .dir), (["s", "a"], .dir), (["s", "b"], .file (.text "new")), (["s", "c"], .dir),
    (["s", "c", "f"], .file (.text "more"))]⟩

theorem copyDir_law_overlapping : ∃ after,
    copyDir "s" "d" (.ofTree overlappingDirs) = .ok 2 after ∧
      LaidOver (overlappingDirs.Passes "d") "s" "d" overlappingDirs after.tree ∧
      copyDir "s" "d" after = .ok 2 after := by
  have hsound : overlappingDirs.Sound := by decide +kernel
  have hdir : overlappingDirs.isDir "s" = true := by decide +kernel
  have hinside : overlappingDirs.inside (overlappingDirs.placeOf "s") =
      ([(["a"], .dir), (["b"], .file (.text "new")), (["c"], .dir),
        (["c", "f"], .file (.text "more"))] : List (Location × Entry)) := by
    rw [FileTree.inside, List.mergeSort_of_pairwise (by decide +kernel)]
    decide +kernel
  have hcreate : createDir (copyPath "d" []) (.ofTree overlappingDirs) = .ok () (.ofTree overlappingDirs) :=
    change_of_self _ (Change.makeDirAll_of_isDir hsound.plain.linkFree (by decide +kernel))
  have hends : endsIn (fun count _ => count = 2) (copyDir "s" "d" (.ofTree overlappingDirs)) = true := by
    rw [copyDir_of_isDir hsound.plain.linkFree hdir, bind_of_ok hcreate]
    change endsIn _ (copyEntries "s" "d" (overlappingDirs.inside (overlappingDirs.placeOf "s")) _) = true
    rw [hinside]
    decide +kernel
  obtain ⟨count, after, hok, hcount⟩ := exists_ok_of_endsIn hends
  obtain rfl := of_decide_eq_true hcount
  have hlaw := @copyDir_law "s" "d" (.ofTree overlappingDirs) hsound (by decide +kernel) (by decide +kernel)
  obtain ⟨-, hlaid, hagain⟩ := (hlaw.2 hdir).1 2 after hok
  exact ⟨after, hok, hlaid, hagain⟩

/-- A source, and a target with a directory of the name `new`. -/
def apartDirs : FileTree := ⟨[], [(["d"], .dir), (["d", "new"], .dir), (["s"], .dir)]⟩

/-- A path to the target that leads through the source changes the source. -/
theorem exists_changed_source : apartDirs.Sound ∧
    ¬ apartDirs.placeOf "s" <+: apartDirs.placeOf "./s/new/../../d" ∧
    ¬ apartDirs.placeOf "./s/new/../../d" <+: apartDirs.placeOf "s" ∧
    ∃ after, copyDir "s" "./s/new/../../d" (.ofTree apartDirs) = .ok 0 after ∧
      ∃ names, after.tree.entry? (apartDirs.placeOf "s" ++ names) ≠
        apartDirs.entry? (apartDirs.placeOf "s" ++ names) := by
  have hends : endsIn (fun count tree => count = 0 ∧ tree.entry? ["s", "new"] = some .dir)
      (copyDir "s" "./s/new/../../d" (.ofTree apartDirs)) = true := by
    decide +kernel
  obtain ⟨count, after, hok, hcheck⟩ := exists_ok_of_endsIn hends
  obtain ⟨rfl, hnew⟩ := of_decide_eq_true hcheck
  refine ⟨by decide +kernel, by decide +kernel, by decide +kernel, after, hok, ["new"], ?_⟩
  have hplace : apartDirs.placeOf "s" = ["s".toList] := by decide
  rw [hplace]
  exact hnew ▸ by decide

end Run

end ServiceScaffold
