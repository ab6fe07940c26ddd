import ServiceScaffold.Proofs.FileTree.Sound

/-! # Listings

A directory lists what stands directly in it, each name once. The order of a listing carries no meaning:
in trees that differ in it alone, the same entries stand at the same places and the same paths lead there.
-/

namespace ServiceScaffold.FileTree

variable {tree other : FileTree} {dir location : Location} {name : Text} {entry : Entry} {path : Path}

theorem mem_children_iff :
    (name, entry) ∈ tree.children dir ↔ (dir ++ [name], entry) ∈ tree.entries := by
  simp [children, childName?_eq_some_iff]

theorem WellFormed.mem_children_iff (hformed : tree.WellFormed) :
    (name, entry) ∈ tree.children dir ↔ tree.entry? (dir ++ [name]) = some entry := by
  rw [FileTree.mem_children_iff, hformed.mem_entries_iff]
  exact and_iff_right (by simp)

theorem map_fst_children (tree : FileTree) (dir : Location) :
    (tree.children dir).map Prod.fst = (tree.entries.map Prod.fst).filterMap dir.childName? := by
  rw [children, List.map_filterMap, List.filterMap_map]
  refine List.filterMap_congr fun pair _ => ?_
  rw [Option.map_map]
  exact Option.map_id'

theorem WellFormed.nodup_children (hformed : tree.WellFormed) (dir : Location) :
    ((tree.children dir).map Prod.fst).Nodup := by
  rw [map_fst_children]
  refine hformed.nodup.filterMap fun first second name hfirst hsecond => ?_
  rw [Option.mem_def, childName?_eq_some_iff] at hfirst hsecond
  rw [hfirst, hsecond]

/-- The two trees have the same entries, listed in any order. -/
structure Relisted (tree other : FileTree) : Prop where
  workingDir : other.workingDir = tree.workingDir
  entries : other.entries.Perm tree.entries

theorem Relisted.symm (hrelisted : Relisted tree other) : Relisted other tree :=
  ⟨hrelisted.workingDir.symm, hrelisted.entries.symm⟩

theorem Relisted.nodup (hrelisted : Relisted tree other) (hnodup : (tree.entries.map Prod.fst).Nodup) :
    (other.entries.map Prod.fst).Nodup := (hrelisted.entries.map _).nodup_iff.mpr hnodup

theorem Relisted.extends (hrelisted : Relisted tree other) (hnodup : (tree.entries.map Prod.fst).Nodup) :
    Extends tree other := by
  refine ⟨hrelisted.workingDir, fun place entry hentry => ?_⟩
  by_cases hplace : place = []
  · rwa [hplace] at hentry ⊢
  · refine entry?_of_mem (hrelisted.nodup hnodup) hplace ?_
    exact hrelisted.entries.mem_iff.mpr (mem_entries hplace hentry)

theorem Relisted.entry?_eq (hrelisted : Relisted tree other) (hformed : tree.WellFormed) (place : Location) :
    other.entry? place = tree.entry? place := by
  refine Option.ext fun entry => ⟨?_, ?_⟩
  · exact (hrelisted.symm.extends (hrelisted.nodup hformed.nodup)).entries place entry
  · exact (hrelisted.extends hformed.nodup).entries place entry

theorem Relisted.find_eq_ok_iff {found : Location × Entry} (hrelisted : Relisted tree other)
    (hformed : tree.WellFormed) : other.find path = .ok found ↔ tree.find path = .ok found :=
  ⟨find_extends (hrelisted.symm.extends (hrelisted.nodup hformed.nodup)),
    find_extends (hrelisted.extends hformed.nodup)⟩

theorem Relisted.wellFormed (hrelisted : Relisted tree other) (hformed : tree.WellFormed) :
    other.WellFormed where
  nodup := hrelisted.nodup hformed.nodup
  rooted := fun pair hpair => hformed.rooted pair (hrelisted.entries.mem_iff.mp hpair)
  inDir := fun pair hpair => by
    rw [hrelisted.entry?_eq hformed]
    exact hformed.inDir pair (hrelisted.entries.mem_iff.mp hpair)

end ServiceScaffold.FileTree
