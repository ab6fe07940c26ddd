import ServiceScaffold.Proofs.FileTree.Plain
import ServiceScaffold.Proofs.Path.Lineage

/-! # Confined changes

What may happen to a tree is told place by place: which entry may become which. A change is confined if
nowhere anything else happens. If what is permitted in two steps is permitted in one, confined changes
follow each other.
-/

namespace ServiceScaffold

/-- Which entry, or none, may become which at a place. -/
abbrev Permit := Location → Option Entry → Option Entry → Prop

namespace Permit

/-- What is permitted in two steps is permitted in one. -/
def Transitive (permits : Permit) : Prop :=
  ∀ place first second third, permits place first second → permits place second third →
    permits place first third

/-- Directories stay. -/
def sparesDirs : Permit := fun _ old _ => old ≠ some .dir

theorem transitive_sparesDirs : sparesDirs.Transitive := fun _ _ _ _ hfirst _ => hfirst

end Permit

namespace FileTree

variable {tree before after last : FileTree} {permits others : Permit}
variable {path base upper : Path} {names : List Text} {place location : Location} {entry : Entry}

/-- The second tree is plain, and what is at a place of it was there before or is permitted to have
come of what was. -/
structure Confined (permits : Permit) (before after : FileTree) : Prop where
  plain : after.Plain
  workingDir : after.workingDir = before.workingDir
  entries : ∀ place, after.entry? place = before.entry? place ∨
    permits place (before.entry? place) (after.entry? place)

theorem Confined.refl (hplain : tree.Plain) : Confined permits tree tree :=
  ⟨hplain, rfl, fun _ => Or.inl rfl⟩

theorem Confined.trans (htrans : permits.Transitive) (hfirst : Confined permits before after)
    (hsecond : Confined permits after last) : Confined permits before last where
  plain := hsecond.plain
  workingDir := hsecond.workingDir.trans hfirst.workingDir
  entries := by
    intro place
    rcases hfirst.entries place with hfirst | hfirst
    · rw [← hfirst]
      exact hsecond.entries place
    · rcases hsecond.entries place with hsecond | hsecond
      · rw [hsecond]
        exact Or.inr hfirst
      · exact Or.inr (htrans place _ _ _ hfirst hsecond)

theorem Confined.mono (hconfined : Confined permits before after)
    (hpermits : ∀ place old new, permits place old new → others place old new) :
    Confined others before after :=
  ⟨hconfined.plain, hconfined.workingDir, fun place =>
    (hconfined.entries place).imp_right (hpermits place _ _)⟩

theorem Confined.placeOf_eq (hconfined : Confined permits before after) (path : Path) :
    after.placeOf path = before.placeOf path := placeOf_congr hconfined.workingDir path

/-- Where nothing is permitted everything stays. -/
theorem Confined.entry?_eq (hconfined : Confined permits before after)
    (hforbidden : ¬ permits place (before.entry? place) (after.entry? place)) :
    after.entry? place = before.entry? place := (hconfined.entries place).resolve_right hforbidden

/-- Directories are still there. -/
theorem Confined.dir (hconfined : Confined .sparesDirs before after)
    (hdir : before.entry? place = some .dir) : after.entry? place = some .dir :=
  (hconfined.entry?_eq fun hspares => hspares hdir).trans hdir

/-- Directories that stay can still be passed. -/
theorem Confined.passable (hconfined : Confined .sparesDirs before after)
    (hpassable : before.Passable (before.startOf path) path.steps) :
    after.Passable (after.startOf path) path.steps := by
  rw [startOf_congr hconfined.workingDir]
  exact hpassable.mono fun place hdir => hconfined.dir hdir

/-! ## One entry -/

theorem confined_put (hplain : tree.Plain) (hlocation : ∀ name ∈ location, Path.IsSegment name)
    (hroot : location ≠ []) (hentry : ∀ target, entry ≠ .link target) :
    Confined (fun place old new => place = location ∧ old = tree.entry? location ∧ new = some entry)
      tree (tree.put location entry) where
  plain := hplain.put hlocation hentry
  workingDir := rfl
  entries := by
    intro place
    rw [entry?_put hroot]
    split
    next heq =>
      subst heq
      exact Or.inr ⟨rfl, rfl, rfl⟩
    next => exact Or.inl rfl

theorem entry?_erase (hlocation : location ≠ []) : entry? (tree.erase location) location = none := by
  rw [entry?_of_ne_nil hlocation, List.lookup_eq_none_iff]
  intro pair hpair
  have hne := of_decide_eq_true (List.mem_filter.mp hpair).2
  exact bne_iff_ne.mpr (Ne.symm hne)

theorem confined_erase (hplain : tree.Plain) :
    Confined (fun place old new => place = location ∧ old = tree.entry? location ∧ new = none)
      tree (tree.erase location) where
  plain := hplain.erase location
  workingDir := rfl
  entries := by
    intro place
    by_cases hplace : place = location
    · subst hplace
      by_cases hroot : place = []
      · subst hroot
        exact Or.inl rfl
      · exact Or.inr ⟨rfl, rfl, entry?_erase hroot⟩
    · exact Or.inl (entry?_erase_of_ne hplace)

theorem outside_iff :
    (!location.isPrefixOf place || decide (place = location)) = true ↔
      ¬(location <+: place ∧ place ≠ location) := by
  rw [Bool.or_eq_true, Bool.not_eq_true', decide_eq_true_eq, ← List.isPrefixOf_iff_prefix,
    ← Bool.not_eq_true, not_and_or, not_not]

theorem entry?_eraseInside (hinside : location <+: place) (hne : place ≠ location) :
    entry? (tree.eraseInside location) place = none := by
  have hroot : place ≠ [] := by
    rintro rfl
    exact hne (List.prefix_nil.mp hinside).symm
  rw [entry?_of_ne_nil hroot, List.lookup_eq_none_iff]
  intro pair hpair
  refine bne_iff_ne.mpr ?_
  rintro rfl
  exact outside_iff.mp (List.mem_filter.mp hpair).2 ⟨hinside, hne⟩

theorem confined_eraseInside (hplain : tree.Plain) :
    Confined (fun place _ new => location <+: place ∧ place ≠ location ∧ new = none) tree
      (tree.eraseInside location) where
  plain := hplain.eraseInside location
  workingDir := rfl
  entries := by
    intro place
    by_cases hroot : place = []
    · subst hroot
      exact Or.inl rfl
    by_cases hinside : location <+: place ∧ place ≠ location
    · exact Or.inr ⟨hinside.1, hinside.2, entry?_eraseInside hinside.1 hinside.2⟩
    · rw [entry?_of_ne_nil hroot, entry?_of_ne_nil hroot]
      exact Or.inl (lookup_filter fun entry => outside_iff.mpr hinside)

/-! ## Places that a path passes -/

/-- A name of the path is that of the place: the path leads past it, or to it. -/
def Passes (tree : FileTree) (path : Path) (place : Location) : Prop :=
  ∃ steps name, steps ++ [Step.name name] <+: path.steps ∧
    place = steps.foldl Location.follow (tree.startOf path) ++ [name]

theorem passes_congr (hworking : after.workingDir = before.workingDir) :
    after.Passes path place ↔ before.Passes path place := by
  rw [Passes, Passes, startOf_congr hworking]

theorem startOf_onWay (honWay : Path.OnWay upper path) : tree.startOf upper = tree.startOf path := by
  rw [startOf, startOf, honWay.isAbsolute]

theorem Passes.of_onWay (honWay : Path.OnWay upper path) (hpasses : tree.Passes upper place) :
    tree.Passes path place := by
  obtain ⟨steps, name, hsteps, hplace⟩ := hpasses
  exact ⟨steps, name, hsteps.trans honWay.steps, startOf_onWay honWay ▸ hplace⟩

theorem foldl_follow_names (place : Location) (names : List Text) :
    (names.map Step.name).foldl Location.follow place = place ++ names := by
  induction names generalizing place with
  | nil => exact (List.append_nil place).symm
  | cons name names ih =>
      rw [List.map_cons, List.foldl_cons, ih]
      exact List.append_assoc place [name] names

theorem startOf_below (hbelow : Path.Below base names path) : tree.startOf path = tree.startOf base := by
  rw [startOf, startOf, hbelow.isAbsolute]

theorem placeOf_below (hbelow : Path.Below base names path) :
    tree.placeOf path = tree.placeOf base ++ names := by
  rw [placeOf, placeOf, hbelow.steps, List.foldl_append, foldl_follow_names, startOf_below hbelow]

/-- A path below a directory leads to that directory first, and then along the names. -/
theorem Passes.of_below (hbelow : Path.Below base names path) (hpasses : tree.Passes path place) :
    tree.Passes base place ∨ ∃ front, front <+: names ∧ place = tree.placeOf base ++ front := by
  obtain ⟨steps, name, hsteps, rfl⟩ := hpasses
  rw [hbelow.steps] at hsteps
  rw [startOf_below hbelow]
  rcases List.prefix_or_prefix_of_prefix hsteps (List.prefix_append base.steps _) with hupper | hlower
  · exact Or.inl ⟨steps, name, hupper, rfl⟩
  · obtain ⟨rest, hrest⟩ := hlower
    rw [← hrest, List.prefix_append_right_inj] at hsteps
    obtain ⟨first, hfront, rfl⟩ := List.prefix_map_iff.mp hsteps
    have hplace : tree.placeOf base ++ first =
        (steps ++ [Step.name name]).foldl Location.follow (tree.startOf base) := by
      rw [← hrest, List.foldl_append, foldl_follow_names]
      rfl
    rw [List.foldl_append] at hplace
    exact Or.inr ⟨first, hfront, hplace.symm⟩

/-- Every place that a path of directories passes is one of them. -/
theorem entry?_of_passes (hpassable : tree.Passable (tree.startOf path) path.steps)
    (hpasses : tree.Passes path place) : tree.entry? place = some .dir := by
  obtain ⟨steps, name, ⟨rest, hsteps⟩, rfl⟩ := hpasses
  rw [← hsteps, passable_append, passable_append] at hpassable
  exact hpassable.1.2.2.1

end FileTree

end ServiceScaffold
