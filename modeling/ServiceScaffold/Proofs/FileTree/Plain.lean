import ServiceScaffold.Proofs.FileTree.Reach

/-! # Plain trees

A tree is plain if it holds no symbolic link and every name in it is an ordinary one. What a path
leads to in a plain tree is reached by ordinary names too, so a tree stays plain when files and
directories are put there or taken away.
-/

namespace ServiceScaffold

namespace Path

instance : DecidablePred IsSegment := fun name =>
  decidable_of_iff ('/' ∉ name ∧ name ≠ [] ∧ name ≠ "." ∧ name ≠ "..")
    ⟨fun ⟨hseparator, hnil, hhere, hup⟩ => ⟨hseparator, hnil, hhere, hup⟩,
      fun h => ⟨h.noSeparator, h.ne_nil, h.ne_here, h.ne_up⟩⟩

theorem isSegment_of_mem_steps {path : Path} {name : Text} (hmem : Step.name name ∈ path.steps) :
    IsSegment name := by
  rw [steps_eq] at hmem
  obtain ⟨segment, hsegment, hstep⟩ := List.mem_filterMap.mp hmem
  unfold stepOf? at hstep
  split at hstep
  · cases hstep
  next hempty =>
    split at hstep
    · cases hstep
    next hhere =>
      split at hstep
      · cases hstep
      next hup =>
        cases hstep
        exact ⟨Text.notMem_of_mem_splitOn hsegment, by simpa using hempty, hhere, hup⟩

end Path

namespace FileTree

variable {tree : FileTree} {path : Path} {location place : Location} {entry : Entry}

/-- No symbolic links, and ordinary names everywhere. -/
structure Plain (tree : FileTree) : Prop where
  linkFree : tree.LinkFree
  names : ∀ pair ∈ tree.entries, ∀ name ∈ pair.1, Path.IsSegment name
  workingDir : ∀ name ∈ tree.workingDir, Path.IsSegment name

instance : DecidablePred Plain := fun tree =>
  decidable_of_iff (tree.LinkFree ∧ (∀ pair ∈ tree.entries, ∀ name ∈ pair.1, Path.IsSegment name) ∧
      ∀ name ∈ tree.workingDir, Path.IsSegment name)
    ⟨fun ⟨hfree, hnames, hworking⟩ => ⟨hfree, hnames, hworking⟩,
      fun h => ⟨h.linkFree, h.names, h.workingDir⟩⟩

theorem isSegment_of_mem_follow {steps : List Step} (hplace : ∀ name ∈ place, Path.IsSegment name)
    (hsteps : ∀ name, Step.name name ∈ steps → Path.IsSegment name) :
    ∀ name ∈ steps.foldl Location.follow place, Path.IsSegment name := by
  induction steps generalizing place with
  | nil => exact hplace
  | cons step steps ih =>
      refine ih ?_ fun name hname => hsteps name (List.mem_cons_of_mem _ hname)
      cases step with
      | here => exact hplace
      | close => exact hplace
      | up => exact fun name hname => hplace name (List.dropLast_subset place hname)
      | name last =>
          intro name hname
          rcases List.mem_append.mp hname with hname | hname
          · exact hplace name hname
          · rw [List.mem_singleton.mp hname]
            exact hsteps last List.mem_cons_self

theorem Plain.isSegment_of_mem_placeOf (hplain : tree.Plain) (path : Path) :
    ∀ name ∈ tree.placeOf path, Path.IsSegment name := by
  refine isSegment_of_mem_follow ?_ fun name => Path.isSegment_of_mem_steps
  unfold startOf
  split
  · exact fun name hname => absurd hname List.not_mem_nil
  · exact hplain.workingDir

/-! ## Changes -/

theorem Plain.put (hplain : tree.Plain) (hlocation : ∀ name ∈ location, Path.IsSegment name)
    (hentry : ∀ target, entry ≠ .link target) : (tree.put location entry).Plain where
  linkFree := hplain.linkFree.put hentry
  names := by
    intro pair hpair
    rcases mem_putEntry hpair with rfl | hold
    · exact hlocation
    · exact hplain.names pair hold
  workingDir := hplain.workingDir

theorem Plain.putAll (hplain : tree.Plain) {writes : List (Location × Content)}
    (hwrites : ∀ write ∈ writes, ∀ name ∈ write.1, Path.IsSegment name) :
    (tree.putAll writes).Plain := by
  induction writes generalizing tree with
  | nil => exact hplain
  | cons write writes ih =>
      obtain ⟨hwrite, hrest⟩ := List.forall_mem_cons.mp hwrites
      exact ih (hplain.put hwrite (by simp)) hrest

/-- Less of a plain tree is plain. -/
theorem Plain.of_subset {entries : List (Location × Entry)} (hplain : tree.Plain)
    (hsubset : entries ⊆ tree.entries) : Plain ⟨tree.workingDir, entries⟩ where
  linkFree := fun pair hpair => hplain.linkFree pair (hsubset hpair)
  names := fun pair hpair => hplain.names pair (hsubset hpair)
  workingDir := hplain.workingDir

theorem Plain.erase (hplain : tree.Plain) (location : Location) : (tree.erase location).Plain :=
  hplain.of_subset (List.filter_subset_self _)

theorem Plain.eraseInside (hplain : tree.Plain) (location : Location) :
    (tree.eraseInside location).Plain := hplain.of_subset (List.filter_subset_self _)

/-! ## Listings -/

theorem childName?_eq_some_iff {dir : Location} {name : Text} :
    Location.childName? dir place = some name ↔ place = dir ++ [name] := by
  induction dir generalizing place with
  | nil =>
      match place with
      | [] => simp [Location.childName?]
      | [other] => simp [Location.childName?, eq_comm]
      | _ :: _ :: _ => simp [Location.childName?]
  | cons first dir ih =>
      cases place with
      | nil => simp [Location.childName?]
      | cons other place =>
          by_cases hfirst : first = other
          · simp [Location.childName?, hfirst, ih]
          · simp [Location.childName?, hfirst, Ne.symm hfirst]

/-- A directory without names in it has nothing directly inside. -/
theorem vacant_of_children_isEmpty {dir : Location} (hempty : (tree.children dir).isEmpty = true)
    (name : Text) : tree.entry? (dir ++ [name]) = none := by
  rw [entry?_of_ne_nil (by simp), List.lookup_eq_none_iff]
  intro pair hpair
  refine bne_iff_ne.mpr fun heq => ?_
  have hchild : (name, pair.2) ∈ tree.children dir := by
    refine List.mem_filterMap.mpr ⟨pair, hpair, ?_⟩
    rw [childName?_eq_some_iff.mpr heq.symm]
    rfl
  rw [List.isEmpty_iff.mp hempty] at hchild
  cases hchild

/-- What is inside a directory is seen from it. -/
theorem mem_inside_iff {dir names : Location} :
    (names, entry) ∈ tree.inside dir ↔ names ≠ [] ∧ (dir ++ names, entry) ∈ tree.entries := by
  rw [inside, List.mem_mergeSort, List.mem_filterMap]
  constructor
  · rintro ⟨⟨place, held⟩, hheld, hmatch⟩
    split at hmatch
    · cases hmatch
    next below hinside hbelow =>
      cases hmatch
      obtain rfl := List.isPrefixOf?_eq_some_iff_append_eq.mp hbelow
      exact ⟨hinside, hheld⟩
    · cases hmatch
  · rintro ⟨hinside, hheld⟩
    refine ⟨(dir ++ names, entry), hheld, ?_⟩
    rw [List.isPrefixOf?_eq_some_iff_append_eq.mpr rfl]
    cases names with
    | nil => exact absurd rfl hinside
    | cons => rfl

theorem Plain.isSegment_of_mem_list (hplain : tree.Plain) {listing : List (Text × Entry)}
    (hlist : tree.list path = .ok listing) : ∀ pair ∈ listing, Path.IsSegment pair.1 := by
  unfold list at hlist
  split at hlist
  · cases hlist
    intro pair hpair
    obtain ⟨⟨place, entry⟩, hentry, hchild⟩ := List.mem_filterMap.mp hpair
    obtain ⟨name, hname, rfl⟩ := Option.map_eq_some_iff.mp hchild
    rw [childName?_eq_some_iff] at hname
    exact hplain.names _ hentry name (by rw [hname]; simp)
  · cases hlist
  · cases hlist

end FileTree

end ServiceScaffold
