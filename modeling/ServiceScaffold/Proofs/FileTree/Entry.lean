import Mathlib.Data.List.Nodup
import ServiceScaffold.FileTree.Change

/-! # Entries and writes

What a tree holds at each place after an entry was put into it. Several writes are a list of places
and contents: the last write to a place decides what it holds, and the same writes once more change
nothing.
-/

namespace ServiceScaffold

/-- Is the entry a symbolic link? -/
def Entry.isLink : Entry → Bool
  | .link _ => true
  | _ => false

theorem Entry.isLink_eq_false_iff {entry : Entry} :
    entry.isLink = false ↔ ∀ target, entry ≠ .link target := by
  cases entry <;> simp [isLink]

namespace FileTree

instance : DecidablePred LinkFree := fun tree =>
  decidable_of_iff (∀ pair ∈ tree.entries, pair.2.isLink = false) <| by
    simp only [LinkFree, Entry.isLink_eq_false_iff]

variable {tree : FileTree} {place location : Location} {entry other : Entry}
variable {entries : List (Location × Entry)}

@[simp] theorem entry?_root (tree : FileTree) : tree.entry? [] = some .dir := rfl

theorem entry?_of_ne_nil (hplace : place ≠ []) : tree.entry? place = tree.entries.lookup place := by
  cases place with
  | nil => exact absurd rfl hplace
  | cons name rest => rfl

theorem mem_entries (hplace : place ≠ []) (hentry : tree.entry? place = some entry) :
    (place, entry) ∈ tree.entries := by
  rw [entry?_of_ne_nil hplace] at hentry
  obtain ⟨before, after, hentries, -⟩ := List.lookup_eq_some_iff.mp hentry
  simp [hentries]

/-- Where no place is listed twice, what is listed is what stands there. -/
theorem entry?_of_mem (hnodup : (tree.entries.map Prod.fst).Nodup) (hplace : place ≠ [])
    (hmem : (place, entry) ∈ tree.entries) : tree.entry? place = some entry := by
  obtain ⟨before, after, hentries⟩ := List.append_of_mem hmem
  rw [hentries, List.map_append, List.nodup_append] at hnodup
  rw [entry?_of_ne_nil hplace, List.lookup_eq_some_iff]
  refine ⟨before, after, hentries, fun pair hpair => ?_⟩
  exact bne_iff_ne.mpr fun heq =>
    hnodup.2.2 _ (List.mem_map_of_mem hpair) place List.mem_cons_self heq.symm

theorem lookup_cons_ite (first : Location) (old : Entry) (entries : List (Location × Entry))
    (place : Location) :
    ((first, old) :: entries).lookup place =
      if place = first then some old else entries.lookup place := by
  rw [List.lookup_cons]
  split
  next heq => rw [if_pos (beq_iff_eq.mp heq)]
  next hne => rw [if_neg (beq_eq_false_iff_ne.mp hne)]

theorem lookup_putEntry (location : Location) (entry : Entry) (entries : List (Location × Entry))
    (place : Location) :
    (putEntry location entry entries).lookup place =
      if place = location then some entry else entries.lookup place := by
  induction entries with
  | nil => exact lookup_cons_ite location entry [] place
  | cons pair entries ih =>
      obtain ⟨first, old⟩ := pair
      rw [putEntry]
      by_cases hfirst : first = location
      · subst hfirst
        rw [if_pos rfl, lookup_cons_ite, lookup_cons_ite]
        by_cases hplace : place = first
        · rw [if_pos hplace, if_pos hplace]
        · rw [if_neg hplace, if_neg hplace, if_neg hplace]
      · rw [if_neg hfirst, lookup_cons_ite, lookup_cons_ite, ih]
        by_cases hplace : place = first
        · rw [if_pos hplace, if_pos hplace, if_neg (hplace ▸ hfirst)]
        · rw [if_neg hplace, if_neg hplace]

/-! ## One entry -/

@[simp] theorem put_workingDir (tree : FileTree) (location : Location) (entry : Entry) :
    (tree.put location entry).workingDir = tree.workingDir := rfl

theorem entry?_put (hlocation : location ≠ []) (place : Location) :
    entry? (tree.put location entry) place =
      if place = location then some entry else tree.entry? place := by
  by_cases hplace : place = []
  · subst hplace
    rw [entry?_root, if_neg hlocation.symm, entry?_root]
  · rw [entry?_of_ne_nil hplace, entry?_of_ne_nil hplace]
    exact lookup_putEntry location entry tree.entries place

theorem putEntry_putEntry (location : Location) (entry other : Entry)
    (entries : List (Location × Entry)) :
    putEntry location other (putEntry location entry entries) = putEntry location other entries := by
  induction entries with
  | nil => simp [putEntry]
  | cons pair entries ih =>
      by_cases hfirst : pair.1 = location
      · simp [putEntry, hfirst]
      · simp [putEntry, hfirst, ih]

theorem put_put (tree : FileTree) (location : Location) (entry other : Entry) :
    (tree.put location entry).put location other = tree.put location other := by
  simp only [put, putEntry_putEntry]

theorem putEntry_comm {first second : Location} (hne : first ≠ second) (entry other : Entry)
    (hpresent : entries.lookup first ≠ none) :
    putEntry first entry (putEntry second other entries) =
      putEntry second other (putEntry first entry entries) := by
  induction entries with
  -- an entry that is missing goes to the end, so here the order of the writes could be seen
  | nil => exact absurd rfl hpresent
  | cons pair entries ih =>
      obtain ⟨place, old⟩ := pair
      rw [lookup_cons_ite] at hpresent
      by_cases hfirst : place = first
      · subst hfirst
        simp [putEntry, hne]
      · rw [if_neg (Ne.symm hfirst)] at hpresent
        by_cases hsecond : place = second
        · subst hsecond
          simp [putEntry, hfirst]
        · simp [putEntry, hfirst, hsecond, ih hpresent]

/-- Two writes change places if the later of them finds its place occupied. -/
theorem put_comm {first second : Location} (hne : first ≠ second) (entry other : Entry)
    (hroot : first ≠ []) (hpresent : tree.entry? first ≠ none) :
    (tree.put second other).put first entry = (tree.put first entry).put second other := by
  rw [entry?_of_ne_nil hroot] at hpresent
  simp only [put, putEntry_comm hne entry other hpresent]

theorem putEntry_eq_self (hentry : entries.lookup location = some entry) :
    putEntry location entry entries = entries := by
  induction entries with
  | nil => cases hentry
  | cons pair entries ih =>
      obtain ⟨first, old⟩ := pair
      rw [lookup_cons_ite] at hentry
      by_cases hfirst : first = location
      · rw [if_pos hfirst.symm] at hentry
        cases hentry
        rw [putEntry, if_pos hfirst, hfirst]
      · rw [if_neg (Ne.symm hfirst)] at hentry
        rw [putEntry, if_neg hfirst, ih hentry]

theorem put_eq_self (hlocation : location ≠ []) (hentry : tree.entry? location = some entry) :
    tree.put location entry = tree := by
  rw [entry?_of_ne_nil hlocation] at hentry
  rw [put, putEntry_eq_self hentry]

theorem mem_putEntry {pair : Location × Entry} (hpair : pair ∈ putEntry location entry entries) :
    pair = (location, entry) ∨ pair ∈ entries := by
  induction entries with
  | nil => exact Or.inl (List.mem_singleton.mp hpair)
  | cons first entries ih =>
      rw [putEntry] at hpair
      split at hpair
      · exact (List.mem_cons.mp hpair).imp_right (List.mem_cons_of_mem _)
      · rcases List.mem_cons.mp hpair with rfl | hrest
        · exact Or.inr List.mem_cons_self
        · exact (ih hrest).imp_right (List.mem_cons_of_mem _)

theorem LinkFree.put (hfree : tree.LinkFree) (hentry : ∀ target, entry ≠ .link target) :
    (tree.put location entry).LinkFree := by
  intro pair hpair
  rcases mem_putEntry hpair with rfl | hold
  · exact hentry
  · exact hfree pair hold

theorem lookup_filter {keeps : Location × Entry → Bool} (hkeeps : ∀ entry, keeps (place, entry) = true) :
    (entries.filter keeps).lookup place = entries.lookup place := by
  induction entries with
  | nil => rfl
  | cons pair entries ih =>
      obtain ⟨first, old⟩ := pair
      by_cases hfirst : place = first
      · subst hfirst
        rw [List.filter_cons_of_pos (hkeeps old), lookup_cons_ite, lookup_cons_ite, if_pos rfl,
          if_pos rfl]
      · rw [List.filter_cons, lookup_cons_ite, if_neg hfirst, ← ih]
        split
        · rw [lookup_cons_ite, if_neg hfirst]
        · rfl

theorem entry?_erase_of_ne (hplace : place ≠ location) :
    entry? (tree.erase location) place = tree.entry? place := by
  by_cases hroot : place = []
  · rw [hroot, entry?_root, entry?_root]
  · rw [entry?_of_ne_nil hroot, entry?_of_ne_nil hroot]
    exact lookup_filter fun entry => decide_eq_true hplace

/-! ## Several writes -/

/-- The tree after files were written one after another. -/
def putAll (tree : FileTree) : List (Location × Content) → FileTree
  | [] => tree
  | write :: writes => putAll (tree.put write.1 (.file write.2)) writes

variable {writes : List (Location × Content)} {content : Content}

@[simp] theorem putAll_workingDir (tree : FileTree) (writes : List (Location × Content)) :
    (tree.putAll writes).workingDir = tree.workingDir := by
  induction writes generalizing tree with
  | nil => rfl
  | cons write writes ih => rw [putAll, ih, put_workingDir]

theorem entry?_putAll_of_notMem (hroot : ∀ write ∈ writes, write.1 ≠ [])
    (hplace : place ∉ writes.map Prod.fst) : entry? (tree.putAll writes) place = tree.entry? place := by
  induction writes generalizing tree with
  | nil => rfl
  | cons write writes ih =>
      obtain ⟨hwrite, hrest⟩ := List.forall_mem_cons.mp hroot
      rw [List.map_cons, List.mem_cons, not_or] at hplace
      rw [putAll, ih hrest hplace.2, entry?_put hwrite, if_neg hplace.1]

/-- The last write to a place decides what it holds. -/
theorem entry?_putAll_of_last {before after : List (Location × Content)}
    (hroot : ∀ write ∈ before ++ (place, content) :: after, write.1 ≠ [])
    (hlast : place ∉ after.map Prod.fst) :
    entry? (tree.putAll (before ++ (place, content) :: after)) place = some (.file content) := by
  induction before generalizing tree with
  | nil =>
      obtain ⟨hwrite, hrest⟩ := List.forall_mem_cons.mp hroot
      rw [List.nil_append, putAll, entry?_putAll_of_notMem hrest hlast, entry?_put hwrite, if_pos rfl]
  | cons write before ih => exact ih (List.forall_mem_cons.mp hroot).2

/-- Of the members of a list that have a property one is the last. -/
theorem exists_last {α : Type} {holds : α → Prop} {items : List α} (hsome : ∃ item ∈ items, holds item) :
    ∃ before last after, items = before ++ last :: after ∧ holds last ∧ ∀ item ∈ after, ¬ holds item := by
  induction items with
  | nil => simp at hsome
  | cons first items ih =>
      by_cases hrest : ∃ item ∈ items, holds item
      · obtain ⟨before, last, after, rfl, hlast, hafter⟩ := ih hrest
        exact ⟨first :: before, last, after, rfl, hlast, hafter⟩
      · obtain ⟨item, hitem, hholds⟩ := hsome
        have hnone : ∀ item ∈ items, ¬ holds item := fun item hitem hholds => hrest ⟨item, hitem, hholds⟩
        obtain rfl := (List.mem_cons.mp hitem).resolve_right fun hlater => hnone item hlater hholds
        exact ⟨[], item, items, rfl, hholds, hnone⟩

theorem exists_file_putAll (hroot : ∀ write ∈ writes, write.1 ≠ [])
    (hplace : place ∈ writes.map Prod.fst) :
    ∃ content, (place, content) ∈ writes ∧
      entry? (tree.putAll writes) place = some (.file content) := by
  obtain ⟨before, ⟨_, content⟩, after, rfl, rfl, hlast⟩ := exists_last (List.mem_map.mp hplace)
  refine ⟨content, by simp, entry?_putAll_of_last hroot fun hlater => ?_⟩
  obtain ⟨write, hwrite, heq⟩ := List.mem_map.mp hlater
  exact hlast write hwrite heq

/-- Where no place is written to twice, the order of the writes does not matter. -/
theorem entry?_putAll_perm {others : List (Location × Content)} (hperm : others.Perm writes)
    (hroot : ∀ write ∈ writes, write.1 ≠ []) (hnodup : (writes.map Prod.fst).Nodup)
    (place : Location) : entry? (tree.putAll others) place = entry? (tree.putAll writes) place := by
  have hothers : ∀ write ∈ others, write.1 ≠ [] := fun write hwrite =>
    hroot write (hperm.mem_iff.mp hwrite)
  by_cases hplace : place ∈ writes.map Prod.fst
  · have hmoved := (hperm.map Prod.fst).mem_iff.mpr hplace
    obtain ⟨content, hmem, hentry⟩ := @exists_file_putAll tree place writes hroot hplace
    obtain ⟨other, hmoved, hother⟩ := @exists_file_putAll tree place others hothers hmoved
    have hsame := List.inj_on_of_nodup_map hnodup (hperm.mem_iff.mp hmoved) hmem rfl
    rw [hentry, hother, (Prod.mk.inj hsame).2]
  · have hmoved := fun hmem => hplace ((hperm.map Prod.fst).mem_iff.mp hmem)
    rw [entry?_putAll_of_notMem hroot hplace, entry?_putAll_of_notMem hothers hmoved]

/-- What is put where a later write goes is lost, if the place was occupied before. -/
theorem putAll_put_of_mem (hroot : ∀ write ∈ writes, write.1 ≠ [])
    (hplace : place ∈ writes.map Prod.fst) (hpresent : tree.entry? place ≠ none) :
    (tree.put place entry).putAll writes = tree.putAll writes := by
  induction writes generalizing tree with
  | nil => cases hplace
  | cons write writes ih =>
      obtain ⟨hwrite, hrest⟩ := List.forall_mem_cons.mp hroot
      by_cases hfirst : place = write.1
      · rw [putAll, putAll, hfirst, put_put]
      · rw [List.map_cons, List.mem_cons] at hplace
        have hlater := hplace.resolve_left hfirst
        have hne : place ≠ [] := by
          obtain ⟨later, hmem, rfl⟩ := List.mem_map.mp hlater
          exact hrest later hmem
        have hstill : entry? (tree.put write.1 (.file write.2)) place ≠ none := by
          rwa [entry?_put hwrite, if_neg hfirst]
        rw [putAll, putAll, ← put_comm hfirst entry (.file write.2) hne hpresent, ih hrest hlater hstill]

/-- Writes that find every place as they leave it change nothing. -/
theorem putAll_putAll (hroot : ∀ write ∈ writes, write.1 ≠ []) :
    (tree.putAll writes).putAll writes = tree.putAll writes := by
  induction writes generalizing tree with
  | nil => rfl
  | cons write writes ih =>
      obtain ⟨hwrite, hrest⟩ := List.forall_mem_cons.mp hroot
      rw [putAll, putAll]
      generalize hlast : (tree.put write.1 (.file write.2)).putAll writes = last
      have hagain : last.putAll writes = last := hlast ▸ ih hrest
      -- once more, the first write is either undone by a later one or finds its own content
      by_cases hlater : write.1 ∈ writes.map Prod.fst
      · obtain ⟨content, -, hfile⟩ := exists_file_putAll hrest hlater
        rw [hlast] at hfile
        rw [putAll_put_of_mem hrest hlater (by rw [hfile]; simp), hagain]
      · have hkept : last.entry? write.1 = some (.file write.2) := by
          rw [← hlast, entry?_putAll_of_notMem hrest hlater, entry?_put hwrite, if_pos rfl]
        rw [put_eq_self hwrite hkept, hagain]

end FileTree

end ServiceScaffold
