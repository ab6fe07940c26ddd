import ServiceScaffold.Proofs.FileTree.Place

/-! # What a path leads to

In a tree without symbolic links a path that leads somewhere leads to the place that it names. So
what is read through a path is what stands at its place, a write through it goes there, and both can
be done in every tree with the same directories in which the place holds the same.
-/

namespace ServiceScaffold

namespace FileTree

variable {tree other : FileTree} {goal : Goal} {spot : Spot} {path dir : Path} {name : Text}

/-- A path that the system takes at all. -/
structure Acceptable (path : Path) : Prop where
  noNul : path.contains '\x00' = false
  ne_nil : path.isEmpty = false
  short : Text.byteLength path ≤ longestPath

theorem spot_eq_ok_iff {ending : List Step} :
    tree.spot goal ending path = .ok spot ↔
      Acceptable path ∧
        walk tree goal mostLinks (tree.startOf path) (path.steps ++ ending) = .ok spot := by
  unfold FileTree.spot
  by_cases haccept : Acceptable path
  · rw [if_neg (by simpa using haccept.noNul), if_neg (by simp [haccept.ne_nil]),
      if_neg (Nat.not_lt.mpr haccept.short)]
    exact (and_iff_right haccept).symm
  · refine iff_of_false ?_ fun h => haccept h.1
    split
    · simp
    split
    · simp
    split
    · simp
    next hnul hempty hlong =>
      exact absurd ⟨by simpa using hnul, by simpa using hempty, Nat.not_lt.mp hlong⟩ haccept

theorem exists_walk_eq (tree : FileTree) (goal : Goal) :
    ∃ onLink, walk tree goal mostLinks = walkWith tree goal onLink := ⟨_, rfl⟩

/-- Links or not, a path leads to what stands at a place. -/
theorem exists_spotAt_of_walkWith {onLink : Location → List Step → Except Fault Spot}
    (honLink : ∀ place steps spot, onLink place steps = .ok spot →
      ∃ location, spot = tree.spotAt location)
    {place : Location} {steps : List Step} (hwalk : walkWith tree goal onLink place steps = .ok spot) :
    ∃ location, spot = tree.spotAt location := by
  induction steps generalizing place with
  | nil => exact ⟨place, (walkWith_nil.mp hwalk).1⟩
  | cons step rest ih =>
      by_cases hname : ∃ name, step = .name name
      · obtain ⟨name, rfl⟩ := hname
        obtain ⟨-, -, hleads⟩ := walkWith_name_iff.mp hwalk
        cases hentry : tree.entry? (place ++ [name]) with
        | none =>
            rw [hentry] at hleads
            exact ⟨place ++ [name], by rw [hleads.2, spotAt, hentry]⟩
        | some entry =>
            rw [hentry] at hleads
            cases entry with
            | dir => exact ih hleads
            | file content => exact ⟨place ++ [name], by rw [hleads.2, spotAt, hentry]⟩
            | link target =>
                rw [NameLeads] at hleads
                split at hleads
                · exact ⟨place ++ [name], by rw [hleads, spotAt, hentry]⟩
                · exact honLink _ _ _ hleads
      · rw [walkWith_cons (not_exists.mp hname)] at hwalk
        exact ih hwalk

theorem exists_spotAt_of_spot {ending : List Step} (hspot : tree.spot goal ending path = .ok spot) :
    ∃ location, spot = tree.spotAt location := by
  have hwalk : ∀ links place steps spot, walk tree goal links place steps = .ok spot →
      ∃ location, spot = tree.spotAt location := by
    intro links
    induction links with
    | zero => exact fun _ _ _ => exists_spotAt_of_walkWith (by simp)
    | succ links ih => exact fun _ _ _ => exists_spotAt_of_walkWith ih
  exact hwalk _ _ _ _ (spot_eq_ok_iff.mp hspot).2

/-- What may stand behind the steps of a path: nothing, or the separator at its end. -/
theorem foldl_follow_ending {ending : List Step} (hending : ending = [] ∨ ending = path.ending)
    (place : Location) : ending.foldl Location.follow place = place := by
  rcases hending with rfl | rfl
  · rfl
  · unfold Path.ending
    split <;> rfl

theorem spot_eq {ending : List Step} (hfree : tree.LinkFree)
    (hending : ending = [] ∨ ending = path.ending)
    (hspot : tree.spot goal ending path = .ok spot) : spot = tree.spotAt (tree.placeOf path) := by
  obtain ⟨onLink, hwalk⟩ := exists_walk_eq tree goal
  have hsteps := (spot_eq_ok_iff.mp hspot).2
  rw [hwalk] at hsteps
  rw [walkWith_spot hfree hsteps, List.foldl_append, foldl_follow_ending hending]
  rfl

theorem locate_spot (hfree : tree.LinkFree) (hlocate : tree.locate goal path = .ok spot) :
    spot = tree.spotAt (tree.placeOf path) := spot_eq hfree (Or.inr rfl) hlocate

theorem locate_congr {otherGoal : Goal} (hgoal : otherGoal = .creation → goal = .creation)
    (hfree : tree.LinkFree) (hother : other.LinkFree) (hsame : SameDirs tree other)
    (hplace : other.entry? (tree.placeOf path) = tree.entry? (tree.placeOf path))
    (hlocate : tree.locate goal path = .ok spot) : other.locate otherGoal path = .ok spot := by
  obtain ⟨haccept, hspot⟩ := spot_eq_ok_iff.mp hlocate
  obtain ⟨onLink, hwalk⟩ := exists_walk_eq tree goal
  obtain ⟨otherLink, hotherWalk⟩ := exists_walk_eq other otherGoal
  refine spot_eq_ok_iff.mpr ⟨haccept, ?_⟩
  rw [hwalk] at hspot
  rw [hotherWalk, startOf_congr hsame.workingDir]
  refine walkWith_congr hgoal hfree hother hsame ?_ hspot
  rw [List.foldl_append, foldl_follow_ending (Or.inr rfl)]
  exact hplace

/-! ## Reading -/

theorem find_eq_ok_iff {location : Location} {entry : Entry} :
    tree.find path = .ok (location, entry) ↔
      tree.locate .target path = .ok (.entry location entry) := by
  unfold find
  split <;> simp_all

theorem read_eq_ok_iff {text : Text} :
    tree.read path = .ok text ↔
      ∃ location, tree.find path = .ok (location, .file (.text text)) := by
  unfold read
  split <;> simp_all

theorem isDir_iff : tree.isDir path = true ↔ ∃ location, tree.find path = .ok (location, .dir) := by
  unfold isDir
  cases tree.find path with
  | error => simp
  | ok found =>
      obtain ⟨location, entry⟩ := found
      cases entry <;> simp [Entry.isDir]

theorem isFile_iff :
    tree.isFile path = true ↔ ∃ location content, tree.find path = .ok (location, .file content) := by
  unfold isFile
  cases tree.find path with
  | error => simp
  | ok found =>
      obtain ⟨location, entry⟩ := found
      cases entry <;> simp [Entry.isFile]

theorem holds_iff :
    tree.holds path = true ↔ ∃ location entry, tree.find path = .ok (location, entry) := by
  unfold holds
  cases tree.find path with
  | error => simp
  | ok found =>
      obtain ⟨location, entry⟩ := found
      simp

theorem entry?_of_find (hfree : tree.LinkFree) {location : Location} {entry : Entry}
    (hfind : tree.find path = .ok (location, entry)) :
    location = tree.placeOf path ∧ tree.entry? (tree.placeOf path) = some entry := by
  have hspot := locate_spot hfree (find_eq_ok_iff.mp hfind)
  obtain ⟨hplace, hentry⟩ := spotAt_eq_entry_iff.mp hspot.symm
  exact ⟨hplace.symm, hentry⟩

theorem entry?_of_read (hfree : tree.LinkFree) {text : Text} (hread : tree.read path = .ok text) :
    tree.entry? (tree.placeOf path) = some (.file (.text text)) := by
  obtain ⟨location, hfind⟩ := read_eq_ok_iff.mp hread
  exact (entry?_of_find hfree hfind).2

theorem entry?_of_holds (hfree : tree.LinkFree) (hholds : tree.holds path = true) :
    tree.entry? (tree.placeOf path) ≠ none := by
  unfold holds at hholds
  split at hholds
  next hfind => simp [(entry?_of_find hfree hfind).2]
  next => cases hholds

theorem read_congr (hfree : tree.LinkFree) (hother : other.LinkFree) (hsame : SameDirs tree other)
    (hplace : other.entry? (tree.placeOf path) = tree.entry? (tree.placeOf path)) {text : Text} :
    other.read path = .ok text ↔ tree.read path = .ok text := by
  have hback : tree.entry? (other.placeOf path) = other.entry? (other.placeOf path) := by
    rw [hsame.placeOf_eq, hplace]
  simp only [read_eq_ok_iff, find_eq_ok_iff]
  constructor
  · exact Exists.imp fun _ => locate_congr id hother hfree hsame.symm hback
  · exact Exists.imp fun _ => locate_congr id hfree hother hsame hplace

/-! ## Names in a directory -/

theorem startOf_join (hname : Path.IsSegment name) (tree : FileTree) (dir : Path) :
    tree.startOf (Path.join dir name) = tree.startOf dir := by
  rw [startOf, startOf, Path.isAbsolute_join hname.isAbsolute_eq]

theorem placeOf_join (hname : Path.IsSegment name) (tree : FileTree) (dir : Path) :
    tree.placeOf (Path.join dir name) = tree.placeOf dir ++ [name] := by
  rw [placeOf, placeOf, startOf_join hname, Path.steps_join hname.isAbsolute_eq, hname.steps_eq,
    List.foldl_append]
  rfl

theorem placeOf_join_inj {another : Text} (hname : Path.IsSegment name) (hanother : Path.IsSegment another) :
    tree.placeOf (Path.join dir name) = tree.placeOf (Path.join dir another) ↔ name = another := by
  rw [placeOf_join hname, placeOf_join hanother, List.append_right_inj, List.singleton_inj]

/-- A name in a directory is reached through directories, and nothing else is asked of it. -/
theorem locate_join_eq_ok_iff (hname : Path.IsSegment name) (hfree : tree.LinkFree) :
    tree.locate goal (Path.join dir name) = .ok spot ↔
      Acceptable (Path.join dir name) ∧ tree.Passable (tree.startOf dir) dir.steps ∧
        Text.byteLength name ≤ longestName ∧ spot = tree.spotAt (tree.placeOf dir ++ [name]) := by
  obtain ⟨onLink, hwalk⟩ := exists_walk_eq tree goal
  have habsolute := hname.isAbsolute_eq
  rw [locate, spot_eq_ok_iff, hwalk, startOf_join hname, Path.ending_join habsolute hname.ne_nil,
    hname.ending_eq, List.append_nil, Path.steps_join habsolute, hname.steps_eq,
    walkWith_append_name hfree]
  rfl

/-- An entry is found through a path of directories to the place where it stands. -/
theorem find_join_iff (hname : Path.IsSegment name) (hfree : tree.LinkFree) {entry : Entry} :
    (∃ location, tree.find (Path.join dir name) = .ok (location, entry)) ↔
      Acceptable (Path.join dir name) ∧ tree.Passable (tree.startOf dir) dir.steps ∧
        Text.byteLength name ≤ longestName ∧
        tree.entry? (tree.placeOf dir ++ [name]) = some entry := by
  simp only [find_eq_ok_iff, locate_join_eq_ok_iff hname hfree, exists_and_left,
    eq_comm (b := tree.spotAt _), spotAt_eq_entry_iff, exists_eq_left']

theorem read_join_eq_ok_iff (hname : Path.IsSegment name) (hfree : tree.LinkFree) {text : Text} :
    tree.read (Path.join dir name) = .ok text ↔
      Acceptable (Path.join dir name) ∧ tree.Passable (tree.startOf dir) dir.steps ∧
        Text.byteLength name ≤ longestName ∧
        tree.entry? (tree.placeOf dir ++ [name]) = some (.file (.text text)) := by
  rw [read_eq_ok_iff, find_join_iff hname hfree]

theorem isDir_join_iff (hname : Path.IsSegment name) (hfree : tree.LinkFree) :
    tree.isDir (Path.join dir name) = true ↔
      Acceptable (Path.join dir name) ∧ tree.Passable (tree.startOf dir) dir.steps ∧
        Text.byteLength name ≤ longestName ∧ tree.entry? (tree.placeOf dir ++ [name]) = some .dir := by
  rw [isDir_iff, find_join_iff hname hfree]

theorem isFile_join_iff (hname : Path.IsSegment name) (hfree : tree.LinkFree) :
    tree.isFile (Path.join dir name) = true ↔
      Acceptable (Path.join dir name) ∧ tree.Passable (tree.startOf dir) dir.steps ∧
        Text.byteLength name ≤ longestName ∧
        ∃ content, tree.entry? (tree.placeOf dir ++ [name]) = some (.file content) := by
  simp only [isFile_iff, exists_comm (α := Location), find_join_iff hname hfree, exists_and_left]

theorem holds_join_iff (hname : Path.IsSegment name) (hfree : tree.LinkFree) :
    tree.holds (Path.join dir name) = true ↔
      Acceptable (Path.join dir name) ∧ tree.Passable (tree.startOf dir) dir.steps ∧
        Text.byteLength name ≤ longestName ∧ tree.entry? (tree.placeOf dir ++ [name]) ≠ none := by
  simp only [holds_iff, exists_comm (α := Location), find_join_iff hname hfree, exists_and_left,
    Option.ne_none_iff_exists']

/-- A file that stands where a path can be followed is read through it. -/
theorem read_join_of_entry? (hname : Path.IsSegment name) (hfree : tree.LinkFree)
    (hreach : ∃ spot, tree.locate goal (Path.join dir name) = .ok spot) {text : Text}
    (hentry : tree.entry? (tree.placeOf (Path.join dir name)) = some (.file (.text text))) :
    tree.read (Path.join dir name) = .ok text := by
  obtain ⟨spot, hspot⟩ := hreach
  obtain ⟨haccept, hdirs, hlong, -⟩ := (locate_join_eq_ok_iff hname hfree).mp hspot
  rw [placeOf_join hname] at hentry
  exact (read_join_eq_ok_iff hname hfree).mpr ⟨haccept, hdirs, hlong, hentry⟩

/-- A path that leads to a directory passes directories only. -/
theorem passable_of_isDir (hfree : tree.LinkFree) (hdir : tree.isDir path = true) :
    tree.Passable (tree.startOf path) path.steps := by
  obtain ⟨location, hfind⟩ := isDir_iff.mp hdir
  obtain ⟨onLink, hwalk⟩ := exists_walk_eq tree .target
  have hsteps := (spot_eq_ok_iff.mp (find_eq_ok_iff.mp hfind)).2
  rw [hwalk] at hsteps
  exact (passable_append.mp (passable_of_walkWith_dir hfree hsteps)).1

/-- A path that leads to a directory bears its name. -/
theorem locate_of_isDir (hfree : tree.LinkFree) (hdir : tree.isDir path = true) :
    tree.locate .itself path = .ok (.entry (tree.placeOf path) .dir) := by
  obtain ⟨location, hfind⟩ := isDir_iff.mp hdir
  obtain ⟨rfl, -⟩ := entry?_of_find hfree hfind
  exact locate_congr (by simp) hfree hfree (.refl tree) rfl (find_eq_ok_iff.mp hfind)

theorem passable_join_iff (hname : Path.IsSegment name) :
    tree.Passable (tree.startOf (Path.join dir name)) (Path.join dir name).steps ↔
      tree.Passable (tree.startOf dir) dir.steps ∧ Text.byteLength name ≤ longestName ∧
        tree.entry? (tree.placeOf dir ++ [name]) = some .dir := by
  rw [startOf_join hname, Path.steps_join hname.isAbsolute_eq, hname.steps_eq, passable_append]
  simp only [Passable, and_true]
  rfl

/-- Whether a name in a directory can be reached depends on the directories alone. -/
theorem SameDirs.reach_join_iff (hsame : SameDirs tree other) (hname : Path.IsSegment name)
    (hfree : tree.LinkFree) (hother : other.LinkFree) :
    (∃ spot, other.locate goal (Path.join dir name) = .ok spot) ↔
      ∃ spot, tree.locate goal (Path.join dir name) = .ok spot := by
  simp only [locate_join_eq_ok_iff hname hfree, locate_join_eq_ok_iff hname hother,
    hsame.passable_iff, startOf_congr hsame.workingDir, exists_and_left, exists_eq]

/-! ## Writing -/

theorem writeFile_error {content : Content} {after : FileTree} {fault : Fault}
    (hwrite : Change.writeFile path content tree = .error fault after) : after = tree := by
  unfold Change.writeFile at hwrite
  split at hwrite <;> cases hwrite <;> rfl

/-- A file is written where its path leads, links or not. -/
theorem writeFile_ok {content : Content} {next : FileTree}
    (hwrite : Change.writeFile path content tree = .ok () next) :
    ∃ location, tree.locate .creation path = .ok (tree.spotAt location) ∧
      tree.entry? location ≠ some .dir ∧ next = tree.put location (.file content) := by
  unfold Change.writeFile at hwrite
  split at hwrite
  · cases hwrite
  · cases hwrite
  next location entry hdir hlocate =>
    cases hwrite
    obtain ⟨place, hspot⟩ := exists_spotAt_of_spot hlocate
    obtain ⟨rfl, hentry⟩ := spotAt_eq_entry_iff.mp hspot.symm
    refine ⟨place, hspot ▸ hlocate, ?_, rfl⟩
    rw [hentry]
    rintro ⟨⟩
    exact hdir rfl
  next location hlocate =>
    cases hwrite
    obtain ⟨place, hspot⟩ := exists_spotAt_of_spot hlocate
    obtain ⟨rfl, hentry⟩ := spotAt_eq_vacancy_iff.mp hspot.symm
    refine ⟨place, hspot ▸ hlocate, ?_, rfl⟩
    rw [hentry]
    simp

/-- A file can be written exactly where no directory stands, and it goes to the place of its path. -/
theorem writeFile_eq_ok_iff (hfree : tree.LinkFree) {content : Content} {next : FileTree} :
    Change.writeFile path content tree = .ok () next ↔
      (∃ spot, tree.locate .creation path = .ok spot) ∧ tree.entry? (tree.placeOf path) ≠ some .dir ∧
        next = tree.put (tree.placeOf path) (.file content) := by
  unfold Change.writeFile
  cases hlocate : tree.locate .creation path with
  | error fault => exact iff_of_false (by simp) (by simp)
  | ok spot =>
      -- the write goes by what the path leads to, and that is what stands at its place
      have hspot := locate_spot hfree hlocate
      rw [spotAt] at hspot
      cases hentry : tree.entry? (tree.placeOf path) with
      | none =>
          rw [hentry] at hspot
          subst hspot
          simp [eq_comm]
      | some entry =>
          rw [hentry] at hspot
          subst hspot
          cases entry with
          | dir => simp
          | file => simp [eq_comm]
          | link target => exact absurd hentry (hfree.entry?_ne_link _ target)

theorem placeOf_ne_nil_of_writeFile (hfree : tree.LinkFree) {content : Content} {next : FileTree}
    (hwrite : Change.writeFile path content tree = .ok () next) : tree.placeOf path ≠ [] := by
  intro hroot
  exact ((writeFile_eq_ok_iff hfree).mp hwrite).2.1 (hroot ▸ entry?_root tree)

/-- What is in the way of a file can be seen in a directory that is there, if the file can be written in
whatever tree. -/
theorem holds_join_of_writeFile (hname : Path.IsSegment name) (hfree : tree.LinkFree) (hother : other.LinkFree)
    {content : Content} {next : FileTree}
    (hwrite : Change.writeFile (Path.join dir name) content other = .ok () next)
    (hdirs : tree.Passable (tree.startOf dir) dir.steps)
    (hthere : tree.entry? (tree.placeOf (Path.join dir name)) ≠ none) :
    tree.holds (Path.join dir name) = true := by
  obtain ⟨spot, hlocate⟩ := ((writeFile_eq_ok_iff hother).mp hwrite).1
  obtain ⟨haccept, -, hshort, -⟩ := (locate_join_eq_ok_iff hname hother).mp hlocate
  rw [placeOf_join hname] at hthere
  exact (holds_join_iff hname hfree).mpr ⟨haccept, hdirs, hshort, hthere⟩

end FileTree

end ServiceScaffold
