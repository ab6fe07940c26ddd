import ServiceScaffold.Proofs.FileTree.Change

/-! # Paths past symbolic links

Symbolic links or not, a path that leads to an entry leads there in every tree that has more. And a file
that was written is found through the path that it was written through, as long as the working directory
is a directory.
-/

namespace ServiceScaffold

namespace FileTree

variable {tree other : FileTree} {goal : Goal} {place location : Location} {entry : Entry}
variable {steps rest : List Step} {path : Path} {name : Text} {content : Content} {spot : Spot}
variable {onLink otherLink : Location → List Step → Except Fault Spot}

/-! ## A tree that has more -/

theorem walkWith_extends (hextends : Extends tree other)
    (honLink : ∀ place steps, onLink place steps = .ok (.entry location entry) →
      otherLink place steps = .ok (.entry location entry))
    (hwalk : walkWith tree goal onLink place steps = .ok (.entry location entry)) :
    walkWith other goal otherLink place steps = .ok (.entry location entry) := by
  induction steps generalizing place with
  | nil =>
      obtain ⟨rfl, hentry⟩ := spotAt_eq_entry_iff.mp (walkWith_nil.mp hwalk).1.symm
      have hother := hextends.entries _ _ hentry
      exact walkWith_nil.mpr ⟨(spotAt_eq_entry_iff.mpr ⟨rfl, hother⟩).symm, by simp [hother]⟩
  | cons step rest ih =>
      by_cases hname : ∃ name, step = .name name
      · obtain ⟨name, rfl⟩ := hname
        obtain ⟨hopen, hshort, hleads⟩ := walkWith_name_iff.mp hwalk
        refine walkWith_name_iff.mpr ⟨hopen, hshort, ?_⟩
        cases hnext : tree.entry? (place ++ [name]) with
        | none =>
            rw [hnext] at hleads
            cases hleads.2
        | some found =>
            rw [hnext] at hleads
            rw [hextends.entries _ _ hnext]
            cases found with
            | dir => exact ih hleads
            | file held => exact hleads
            | link target =>
                rw [NameLeads] at hleads ⊢
                by_cases hitself : rest = [] ∧ goal = .itself
                · rw [if_pos hitself] at hleads ⊢
                  exact hleads
                · rw [if_neg hitself] at hleads ⊢
                  exact honLink _ _ hleads
      · rw [walkWith_cons (not_exists.mp hname)] at hwalk ⊢
        exact ih hwalk

theorem walk_extends (hextends : Extends tree other) {links : Nat}
    (hwalk : walk tree goal links place steps = .ok (.entry location entry)) :
    walk other goal links place steps = .ok (.entry location entry) := by
  induction links generalizing place steps with
  | zero => exact walkWith_extends hextends (fun _ _ hlink => hlink) hwalk
  | succ links ih => exact walkWith_extends hextends (fun _ _ hlink => ih hlink) hwalk

/-- What is found is found in a tree that has more. -/
theorem find_extends (hextends : Extends tree other) (hfind : tree.find path = .ok (location, entry)) :
    other.find path = .ok (location, entry) := by
  obtain ⟨haccept, hwalk⟩ := spot_eq_ok_iff.mp (find_eq_ok_iff.mp hfind)
  refine find_eq_ok_iff.mpr (spot_eq_ok_iff.mpr ⟨haccept, ?_⟩)
  rw [startOf_congr hextends.workingDir]
  exact walk_extends hextends hwalk

/-! ## A file that was written -/

/-- The place is a directory, and so is every place above it. -/
def Grounded (tree : FileTree) (place : Location) : Prop :=
  ∀ front, front <+: place → tree.entry? front = some .dir

theorem grounded_root (tree : FileTree) : tree.Grounded [] := by
  intro front hfront
  rw [List.prefix_nil.mp hfront, entry?_root]

theorem Grounded.startOf (hworking : tree.Grounded tree.workingDir) (path : Path) :
    tree.Grounded (tree.startOf path) := by
  unfold FileTree.startOf
  split
  · exact grounded_root tree
  · exact hworking

theorem Grounded.follow {step : Step} (hplace : tree.Grounded place) (hstep : ∀ name, step ≠ .name name) :
    tree.Grounded (place.follow step) := by
  cases step with
  | name name => exact absurd rfl (hstep name)
  | up => exact fun front hfront => hplace front (hfront.trans (List.dropLast_prefix place))
  | _ => exact hplace

theorem Grounded.concat (hplace : tree.Grounded place) (hdir : tree.entry? (place ++ [name]) = some .dir) :
    tree.Grounded (place ++ [name]) := by
  intro front hfront
  rcases List.prefix_concat_iff.mp hfront with rfl | hfront
  · exact hdir
  · exact hplace front hfront

theorem Grounded.link (hplace : tree.Grounded place) (target : Path) :
    tree.Grounded (if target.isAbsolute then [] else place) := by
  split
  · exact grounded_root tree
  · exact hplace

/-- What a file may be created in place of is no symbolic link: those are followed. -/
theorem notLink_of_walkWith {target : Path}
    (honLink : ∀ place steps, tree.Grounded place →
      onLink place steps ≠ .ok (.entry location (.link target)))
    (hplace : tree.Grounded place) :
    walkWith tree .creation onLink place steps ≠ .ok (.entry location (.link target)) := by
  intro hwalk
  induction steps generalizing place with
  | nil =>
      obtain ⟨rfl, hentry⟩ := spotAt_eq_entry_iff.mp (walkWith_nil.mp hwalk).1.symm
      cases (hplace place List.prefix_rfl).symm.trans hentry
  | cons step rest ih =>
      by_cases hname : ∃ name, step = .name name
      · obtain ⟨name, rfl⟩ := hname
        obtain ⟨-, -, hleads⟩ := walkWith_name_iff.mp hwalk
        cases hnext : tree.entry? (place ++ [name]) with
        | none =>
            rw [hnext] at hleads
            cases hleads.2
        | some found =>
            rw [hnext] at hleads
            cases found with
            | dir => exact ih (hplace.concat hnext) hleads
            | file held => cases hleads.2
            | link other =>
                rw [NameLeads, if_neg (by simp)] at hleads
                exact honLink _ _ (hplace.link other) hleads
      · rw [walkWith_cons (not_exists.mp hname)] at hwalk
        exact ih (hplace.follow (not_exists.mp hname)) hwalk

theorem notLink_of_walk {target : Path} {links : Nat} (hplace : tree.Grounded place) :
    walk tree .creation links place steps ≠ .ok (.entry location (.link target)) := by
  induction links generalizing place steps with
  | zero => exact notLink_of_walkWith (by simp) hplace
  | succ links ih => exact notLink_of_walkWith (fun _ _ => ih) hplace

/-- The way to where a file is created is the way to the file. -/
theorem walkWith_put (hdir : tree.entry? location ≠ some .dir)
    (hlink : ∀ target, tree.entry? location ≠ some (.link target))
    (honLink : ∀ place steps, tree.Grounded place → onLink place steps = .ok (tree.spotAt location) →
      otherLink place steps = .ok (.entry location (.file content)))
    (hplace : tree.Grounded place)
    (hwalk : walkWith tree .creation onLink place steps = .ok (tree.spotAt location)) :
    walkWith (tree.put location (.file content)) .target otherLink place steps =
      .ok (.entry location (.file content)) := by
  have hroot : location ≠ [] := by
    rintro rfl
    exact hdir rfl
  induction steps generalizing place with
  | nil =>
      have hhere := hplace place List.prefix_rfl
      obtain ⟨rfl, hentry⟩ := spotAt_eq_entry_iff.mp
        ((walkWith_nil.mp hwalk).1.trans (spotAt_eq_entry_iff.mpr ⟨rfl, hhere⟩))
      exact absurd hentry hdir
  | cons step rest ih =>
      by_cases hname : ∃ name, step = .name name
      · obtain ⟨name, rfl⟩ := hname
        obtain ⟨-, hshort, hleads⟩ := walkWith_name_iff.mp hwalk
        refine walkWith_name_iff.mpr ⟨by simp, hshort, ?_⟩
        rw [entry?_put hroot]
        cases hnext : tree.entry? (place ++ [name]) with
        | none =>
            rw [hnext] at hleads
            obtain ⟨rfl, -⟩ := spotAt_eq_vacancy_iff.mp hleads.2
            exact if_pos rfl ▸ ⟨hleads.1, rfl⟩
        | some found =>
            rw [hnext] at hleads
            cases found with
            | dir =>
                have hne : place ++ [name] ≠ location := fun heq => hdir (heq ▸ hnext)
                rw [if_neg hne]
                exact ih (hplace.concat hnext) hleads
            | file held =>
                obtain ⟨rfl, -⟩ := spotAt_eq_entry_iff.mp hleads.2
                exact if_pos rfl ▸ ⟨hleads.1, rfl⟩
            | link target =>
                have hne : place ++ [name] ≠ location := fun heq => hlink target (heq ▸ hnext)
                rw [NameLeads, if_neg (by simp)] at hleads
                rw [if_neg hne, NameLeads, if_neg (by simp)]
                exact honLink _ _ (hplace.link target) hleads
      · rw [walkWith_cons (not_exists.mp hname)] at hwalk ⊢
        exact ih (hplace.follow (not_exists.mp hname)) hwalk

theorem walk_put {links : Nat} (hdir : tree.entry? location ≠ some .dir)
    (hlink : ∀ target, tree.entry? location ≠ some (.link target)) (hplace : tree.Grounded place)
    (hwalk : walk tree .creation links place steps = .ok (tree.spotAt location)) :
    walk (tree.put location (.file content)) .target links place steps =
      .ok (.entry location (.file content)) := by
  induction links generalizing place steps with
  | zero => exact walkWith_put hdir hlink (by simp) hplace hwalk
  | succ links ih => exact walkWith_put hdir hlink (fun _ _ => ih) hplace hwalk

/-- What was written through a path is found through it. -/
theorem find_of_writeFile {next : FileTree} (hworking : tree.Grounded tree.workingDir)
    (hwrite : Change.writeFile path content tree = .ok () next) :
    ∃ location, next.find path = .ok (location, .file content) := by
  obtain ⟨location, hlocate, hdir, rfl⟩ := writeFile_ok hwrite
  obtain ⟨haccept, hwalk⟩ := spot_eq_ok_iff.mp hlocate
  refine ⟨location, find_eq_ok_iff.mpr (spot_eq_ok_iff.mpr ⟨haccept, ?_⟩)⟩
  refine walk_put hdir (fun target hlink => ?_) (hworking.startOf path) hwalk
  rw [spotAt, hlink] at hwalk
  exact notLink_of_walk (hworking.startOf path) hwalk

end FileTree

end ServiceScaffold
