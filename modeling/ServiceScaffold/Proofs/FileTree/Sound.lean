import Mathlib.Data.List.Induction
import ServiceScaffold.Proofs.FileTree.Pruned

/-! # Sound trees

A sound tree is one that a disk without symbolic links can hold: the names are ordinary, every entry stands
in a directory, no place has two entries, and the run itself is in a directory. Directories that are
created and files that are written in a directory leave it sound.
-/

namespace ServiceScaffold

/-- A separator at the end of a path is no step of its own. -/
theorem Path.close_notMem_steps (path : Path) : Step.close ∉ path.steps := by
  rw [steps_eq]
  simp only [List.mem_filterMap, not_exists, not_and]
  intro segment _
  unfold stepOf?
  split_ifs <;> simp

namespace FileTree

variable {tree : FileTree} {place upper location : Location} {names : List Text} {entry : Entry} {path : Path}

/-- A plain tree in which everything stands in a directory, the run as well. -/
structure Sound (tree : FileTree) : Prop where
  plain : tree.Plain
  wellFormed : tree.WellFormed
  workingDir : tree.entry? tree.workingDir = some .dir

instance : DecidablePred WellFormed := fun tree =>
  decidable_of_iff ((tree.entries.map Prod.fst).Nodup ∧ (∀ pair ∈ tree.entries, pair.1 ≠ []) ∧
      ∀ pair ∈ tree.entries, tree.entry? pair.1.dropLast = some .dir)
    ⟨fun ⟨hnodup, hrooted, hdirs⟩ => ⟨hnodup, hrooted, hdirs⟩,
      fun h => ⟨h.nodup, h.rooted, h.inDir⟩⟩

instance : DecidablePred Sound := fun tree =>
  decidable_of_iff (tree.Plain ∧ tree.WellFormed ∧ tree.entry? tree.workingDir = some .dir)
    ⟨fun ⟨hplain, hformed, hworking⟩ => ⟨hplain, hformed, hworking⟩,
      fun h => ⟨h.plain, h.wellFormed, h.workingDir⟩⟩

/-! ## Entries and places -/

/-- What is listed is what stands there. -/
theorem WellFormed.mem_entries_iff (hformed : tree.WellFormed) :
    (place, entry) ∈ tree.entries ↔ place ≠ [] ∧ tree.entry? place = some entry := by
  constructor
  · exact fun hmem => ⟨hformed.rooted _ hmem, entry?_of_mem hformed.nodup (hformed.rooted _ hmem) hmem⟩
  · exact fun ⟨hroot, hentry⟩ => mem_entries hroot hentry

/-- Above an entry there are directories only. -/
theorem WellFormed.entry?_upper (hformed : tree.WellFormed) (hnames : names ≠ [])
    (hentry : tree.entry? (place ++ names) ≠ none) : tree.entry? place = some .dir := by
  induction names using List.reverseRecOn with
  | nil => exact absurd rfl hnames
  | append_singleton names name ih =>
      rw [← List.append_assoc] at hentry
      obtain ⟨last, hlast⟩ := Option.ne_none_iff_exists'.mp hentry
      have hparent := hformed.inDir _ (mem_entries (by simp) hlast)
      rw [List.dropLast_concat] at hparent
      by_cases hrest : names = []
      · rwa [hrest, List.append_nil] at hparent
      · exact ih hrest (by simp [hparent])

/-- Nothing is inside a vacancy. -/
theorem WellFormed.entry?_eq_none (hformed : tree.WellFormed) (hvacant : tree.entry? place = none)
    (names : List Text) : tree.entry? (place ++ names) = none := by
  by_contra hentry
  by_cases hnames : names = []
  · rw [hnames, List.append_nil] at hentry
    exact hentry hvacant
  · rw [hformed.entry?_upper hnames hentry] at hvacant
    cases hvacant

theorem WellFormed.grounded (hformed : tree.WellFormed) (hdir : tree.entry? place = some .dir) :
    tree.Grounded place := by
  rintro front ⟨names, rfl⟩
  by_cases hnames : names = []
  · rwa [hnames, List.append_nil] at hdir
  · exact hformed.entry?_upper hnames (by simp [hdir])

theorem Sound.grounded_startOf (hsound : tree.Sound) (path : Path) : tree.Grounded (tree.startOf path) :=
  (hsound.wellFormed.grounded hsound.workingDir).startOf path

/-- A path of directories leads to one. -/
theorem Sound.entry?_of_passable (hsound : tree.Sound)
    (hpassable : tree.Passable (tree.startOf path) path.steps) :
    tree.entry? (tree.placeOf path) = some .dir :=
  hpassable.grounded (hsound.grounded_startOf path) _ List.prefix_rfl

/-- Whether a path leads to a directory is told by the directories that it passes. -/
theorem Sound.isDir_iff (hsound : tree.Sound) :
    tree.isDir path = true ↔ Acceptable path ∧ tree.Passable (tree.startOf path) path.steps := by
  constructor
  · intro hdir
    obtain ⟨location, hfind⟩ := FileTree.isDir_iff.mp hdir
    exact ⟨(spot_eq_ok_iff.mp (find_eq_ok_iff.mp hfind)).1, passable_of_isDir hsound.plain.linkFree hdir⟩
  · rintro ⟨haccept, hpassable⟩
    refine FileTree.isDir_iff.mpr ⟨tree.placeOf path, find_eq_ok_iff.mpr ?_⟩
    obtain ⟨onLink, hwalk⟩ := exists_walk_eq tree .target
    have hentry := hsound.entry?_of_passable hpassable
    have hending : walkWith tree .target onLink (tree.placeOf path) path.ending =
        walkWith tree .target onLink (tree.placeOf path) [] := by
      unfold Path.ending
      split <;> rfl
    rw [locate, spot_eq_ok_iff, hwalk, walkWith_append (by simp) hpassable]
    refine ⟨haccept, hending.trans ?_⟩
    rw [walkWith, hentry]

/-- Where the directories are the same, the same paths lead to directories. -/
theorem SameDirs.isDir_eq {other : FileTree} (hsame : SameDirs tree other) (hsound : tree.Sound)
    (hother : other.Sound) (path : Path) : other.isDir path = tree.isDir path := by
  rw [Bool.eq_iff_iff, hother.isDir_iff, hsound.isDir_iff, startOf_congr hsame.workingDir, hsame.passable_iff]

/-! ## What is inside a place -/

theorem Sound.mem_inside_iff (hsound : tree.Sound) :
    (names, entry) ∈ tree.inside place ↔ names ≠ [] ∧ tree.entry? (place ++ names) = some entry := by
  rw [FileTree.mem_inside_iff, hsound.wellFormed.mem_entries_iff]
  refine and_congr_right fun hnames => and_iff_right ?_
  simp [hnames]

theorem Sound.nodup_inside (hsound : tree.Sound) (place : Location) : (tree.inside place).Nodup := by
  rw [inside, (List.mergeSort_perm _ _).nodup_iff]
  refine (List.Nodup.of_map _ hsound.wellFormed.nodup).filterMap fun pair other below hpair hother => ?_
  split at hpair
  · cases hpair
  next names _ hinside =>
    cases hpair
    split at hother
    · cases hother
    next others _ hotherInside =>
      obtain ⟨rfl, hentry⟩ := Prod.mk.inj (Option.some.inj hother)
      rw [List.isPrefixOf?_eq_some_iff_append_eq] at hinside hotherInside
      exact Prod.ext (hinside.symm.trans hotherInside) hentry.symm
    · cases hother
  · cases hpair

/-- The regular files inside a place, seen from it. -/
def regularFiles (tree : FileTree) (place : Location) : List Location :=
  ((tree.inside place).filter fun entry => entry.2.isFile).map Prod.fst

theorem Sound.mem_regularFiles_iff (hsound : tree.Sound) :
    names ∈ tree.regularFiles place ↔
      names ≠ [] ∧ ∃ content, tree.entry? (place ++ names) = some (.file content) := by
  simp only [regularFiles, List.mem_map, List.mem_filter, Prod.exists, exists_and_right, exists_eq_right,
    hsound.mem_inside_iff]
  constructor
  · rintro ⟨entry, ⟨hnames, hentry⟩, hfile⟩
    cases entry with
    | file content => exact ⟨hnames, content, hentry⟩
    | _ => cases hfile
  · rintro ⟨hnames, content, hentry⟩
    exact ⟨.file content, ⟨hnames, hentry⟩, rfl⟩

theorem Sound.nodup_regularFiles (hsound : tree.Sound) (place : Location) :
    (tree.regularFiles place).Nodup := by
  refine ((hsound.nodup_inside place).filter _).map_on ?_
  rintro ⟨names, entry⟩ hpair ⟨others, other⟩ hother heq
  obtain rfl : names = others := heq
  have hfirst := (hsound.mem_inside_iff.mp (List.mem_filter.mp hpair).1).2
  have hsecond := (hsound.mem_inside_iff.mp (List.mem_filter.mp hother).1).2
  exact Prod.ext rfl (Option.some.inj (hfirst.symm.trans hsecond))

/-- Places with the same regular files have the same number of them. -/
theorem Sound.length_regularFiles_eq {other : FileTree} {otherPlace : Location} (hsound : tree.Sound)
    (hother : other.Sound) (hsame : ∀ names content, other.entry? (otherPlace ++ names) = some (.file content) ↔
      tree.entry? (place ++ names) = some (.file content)) :
    (other.regularFiles otherPlace).length = (tree.regularFiles place).length := by
  refine ((List.perm_ext_iff_of_nodup (hother.nodup_regularFiles _) (hsound.nodup_regularFiles _)).mpr
    fun names => ?_).length_eq
  simp only [hother.mem_regularFiles_iff, hsound.mem_regularFiles_iff, hsame]

/-! ## Changes -/

theorem map_fst_putEntry (location : Location) (entry : Entry) (entries : List (Location × Entry)) :
    (putEntry location entry entries).map Prod.fst =
      if location ∈ entries.map Prod.fst then entries.map Prod.fst
      else entries.map Prod.fst ++ [location] := by
  induction entries with
  | nil => rfl
  | cons pair entries ih =>
      rw [putEntry]
      by_cases hfirst : pair.1 = location
      · simp [hfirst]
      · rw [if_neg hfirst, List.map_cons, ih]
        simp only [List.map_cons, List.mem_cons, Ne.symm hfirst, false_or]
        split <;> rfl

/-- An entry that is put in a directory, and not a file in place of a directory. -/
theorem Sound.put (hsound : tree.Sound) (hlocation : ∀ name ∈ location, Path.IsSegment name)
    (hlink : ∀ target, entry ≠ .link target) (hroot : location ≠ [])
    (hparent : tree.entry? location.dropLast = some .dir)
    (hdir : tree.entry? location = some .dir → entry = .dir) : (tree.put location entry).Sound := by
  have hkept {place : Location} (hplace : tree.entry? place = some .dir) :
      entry? (tree.put location entry) place = some .dir := by
    rw [entry?_put hroot]
    split
    next heq => rw [hdir (heq ▸ hplace)]
    next => exact hplace
  refine ⟨hsound.plain.put hlocation hlink, ⟨?_, fun pair hpair => ?_, fun pair hpair => ?_⟩,
    hkept hsound.workingDir⟩
  · have hnodup := hsound.wellFormed.nodup
    rw [FileTree.put, map_fst_putEntry]
    split
    next => exact hnodup
    next hvacant =>
      refine List.nodup_append.mpr ⟨hnodup, List.nodup_singleton _, fun place hplace other hother => ?_⟩
      rw [List.mem_singleton.mp hother]
      exact fun heq => hvacant (heq ▸ hplace)
  · rcases mem_putEntry hpair with rfl | hold
    · exact hroot
    · exact hsound.wellFormed.rooted pair hold
  · rcases mem_putEntry hpair with rfl | hold
    · exact hkept hparent
    · exact hkept (hsound.wellFormed.inDir pair hold)

/-- An entry that is taken away and is no directory. -/
theorem Sound.erase (hsound : tree.Sound) (hdir : tree.entry? location ≠ some .dir) :
    (tree.erase location).Sound := by
  have hkept {place : Location} (hplace : tree.entry? place = some .dir) :
      entry? (tree.erase location) place = some .dir := by
    rw [entry?_erase_of_ne, hplace]
    rintro rfl
    exact hdir hplace
  have hmem {pair : Location × Entry} (hpair : pair ∈ (tree.erase location).entries) : pair ∈ tree.entries :=
    List.mem_of_mem_filter hpair
  refine ⟨hsound.plain.erase location, ⟨?_, fun pair hpair => ?_, fun pair hpair => ?_⟩,
    hkept hsound.workingDir⟩
  · exact hsound.wellFormed.nodup.sublist (List.filter_sublist.map Prod.fst)
  · exact hsound.wellFormed.rooted pair (hmem hpair)
  · exact hkept (hsound.wellFormed.inDir pair (hmem hpair))

end FileTree

namespace Change

open FileTree

variable {tree next : FileTree} {path dir name : Path}

theorem sound_of_makeDir (hsound : tree.Sound) (hmake : makeDir path tree = .ok () next) : next.Sound := by
  have hfree := hsound.plain.linkFree
  obtain ⟨hvacant, rfl⟩ := makeDir_ok hfree hmake
  obtain ⟨front, name, -, hdirs, -, hplace⟩ := steps_of_makeDir hfree hmake
  refine hsound.put (hsound.plain.isSegment_of_mem_placeOf path) (by simp) (by simp [hplace]) ?_ (by simp)
  rw [hplace, List.dropLast_concat]
  exact hdirs.grounded (hsound.grounded_startOf path) _ List.prefix_rfl

theorem keeps_sound_makeDirAll (path : Path) : (makeDirAll path).Keeps Sound := by
  refine keeps_makeLineage fun upper _ tree hsound => ?_
  cases hmake : makeDir upper tree with
  | ok value next => exact sound_of_makeDir hsound hmake
  | error fault after => exact makeDir_error hmake ▸ hsound

theorem keeps_sound_writeFile (hname : Path.IsSegment name) (content : Content) :
    (writeFile (Path.join dir name) content).Keeps Sound := by
  intro tree hsound
  cases hwrite : writeFile (Path.join dir name) content tree with
  | error fault after => exact writeFile_error hwrite ▸ hsound
  | ok value next =>
      have hfree := hsound.plain.linkFree
      obtain ⟨⟨spot, hlocate⟩, hdir, rfl⟩ := (writeFile_eq_ok_iff hfree).mp hwrite
      obtain ⟨-, hdirs, -⟩ := (locate_join_eq_ok_iff hname hfree).mp hlocate
      refine hsound.put (hsound.plain.isSegment_of_mem_placeOf _) (by simp) ?_ ?_ (absurd · hdir)
      · exact placeOf_ne_nil_of_writeFile hfree hwrite
      · rw [placeOf_join hname, List.dropLast_concat]
        exact hsound.entry?_of_passable hdirs

theorem keeps_sound_copyFile (hname : Path.IsSegment name) (source : Path) :
    (copyFile source (Path.join dir name)).Keeps Sound := by
  intro tree hsound
  have hempty : (lastState (writeFile (Path.join dir name) (.text []) tree)).Sound :=
    keeps_sound_writeFile hname _ tree hsound
  unfold copyFile
  split
  · exact hsound
  · split
    next hwrite =>
      rw [hwrite] at hempty
      exact hempty
    next next hwrite =>
      rw [hwrite] at hempty
      split
      next content _ => exact keeps_sound_writeFile hname content next hempty
      next => exact hempty
  · exact hsound

theorem keeps_sound_removeFile (path : Path) : (removeFile path).Keeps Sound := by
  intro tree hsound
  cases hremove : removeFile path tree with
  | error fault after => exact removeFile_error hremove ▸ hsound
  | ok value next =>
      obtain ⟨⟨content, hfile⟩, rfl⟩ := removeFile_ok hsound.plain.linkFree hremove
      exact hsound.erase (by simp [hfile])

/-- A path that was created leads through directories. -/
theorem passable_of_makeDirAll (hplain : tree.Plain) (hmake : makeDirAll path tree = .ok () next) :
    next.Passable (next.startOf path) path.steps := by
  rcases Path.lineage_cases path with ⟨-, hhere⟩ | ⟨upper, hlineage⟩
  · exact passable_of_here hhere
  · rw [makeDirAll, hlineage] at hmake
    refine passable_of_makeLineage hplain (fun other hother => Path.onWay_of_mem_lineage ?_) hmake
    exact hlineage ▸ List.mem_cons_of_mem _ hother

/-- As long as its directories stay, a path need not be created again. -/
theorem makeDirAll_again {last : FileTree} (hplain : tree.Plain) (hlast : last.Sound)
    (hmake : makeDirAll path tree = .ok () next) (hworking : last.workingDir = next.workingDir)
    (hdirs : ∀ place, next.entry? place = some .dir → last.entry? place = some .dir) :
    makeDirAll path last = .ok () last := by
  have hpassable := (passable_of_makeDirAll hplain hmake).mono hdirs
  rcases Path.lineage_cases path with ⟨hlineage, -⟩ | ⟨upper, hlineage⟩
  · rw [makeDirAll, hlineage]
    rfl
  · rw [makeDirAll, hlineage] at hmake
    rw [← startOf_congr hworking] at hpassable
    exact makeDirAll_of_isDir hlast.plain.linkFree
      (hlast.isDir_iff.mpr ⟨acceptable_of_makeLineage hmake, hpassable⟩)

/-! ## Directories that were removed -/

/-- Only a name is removed, and so never the root. -/
theorem placeOf_ne_nil_of_removeDir (hremove : removeDir path tree = .ok () next) :
    tree.placeOf path ≠ [] := by
  unfold removeDir at hremove
  split at hremove
  · cases hremove
  · cases hremove
  · split at hremove
    · cases hremove
    · cases hremove
    · cases hremove
    next step hhere hup hlast =>
      obtain ⟨front, hsteps⟩ := List.getLast?_eq_some_iff.mp hlast
      rw [placeOf, hsteps, List.foldl_append]
      cases step with
      | here => exact absurd rfl hhere
      | up => exact absurd rfl hup
      | name name => simp [Location.follow]
      | close => exact absurd (List.mem_of_getLast? hlast) (Path.close_notMem_steps path)
  · cases hremove

/-- What could be removed with all it held is no directory afterwards. -/
theorem isDir_of_removeDirAll (hplain : tree.Plain) (hremove : removeDirAll path tree = .ok () next) :
    next.isDir path = false := by
  rw [← Bool.not_eq_true]
  intro hdir
  unfold removeDirAll at hremove
  split at hremove
  · cases hremove
  · cases hremove
  next location hlocate =>
    have hcleared := hplain.eraseInside location
    split at hremove
    next hmissing =>
      -- the path leads to a directory, which would have been seen
      cases hremove
      obtain rfl := removeDir_error hmissing
      unfold removeDir at hmissing
      rw [spot_of_isDir hcleared.linkFree hdir] at hmissing
      dsimp only at hmissing
      repeat' split at hmissing
      all_goals cases hmissing
    next =>
      obtain ⟨-, -, rfl⟩ := removeDir_ok hcleared.linkFree hremove
      have hroot := placeOf_ne_nil_of_removeDir hremove
      obtain ⟨found, hfind⟩ := isDir_iff.mp hdir
      have hentry := (entry?_of_find (hcleared.erase _).linkFree hfind).2
      cases (entry?_erase hroot).symm.trans hentry
  next location target hlocate =>
    obtain ⟨rfl, hentry⟩ := spotAt_eq_entry_iff.mp (locate_spot hplain.linkFree hlocate).symm
    exact hplain.linkFree.entry?_ne_link _ target hentry
  · cases hremove

end Change

end ServiceScaffold
