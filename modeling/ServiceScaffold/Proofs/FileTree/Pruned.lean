import ServiceScaffold.Proofs.FileTree.Links
import ServiceScaffold.Proofs.Path.Tidy

/-! # Directories that are created again

From a tree some directories were removed that held nothing. Where a path led through directories before,
its directories can be created again, and that gives back no more than what was removed.
-/

namespace ServiceScaffold

namespace FileTree

variable {gone : Location → Prop} {tree full before after : FileTree} {goal : Goal} {entry : Entry}
variable {place location : Location} {steps rest : List Step} {path : Path} {name : Text}
variable {onLink : Location → List Step → Except Fault Spot}

/-- The first tree is the second one without some directories, at places that may be given up, that held
nothing. -/
structure Pruned (gone : Location → Prop) (tree full : FileTree) : Prop where
  workingDir : full.workingDir = tree.workingDir
  entries : ∀ place, tree.entry? place = full.entry? place ∨
    gone place ∧ tree.entry? place = none ∧ full.entry? place = some .dir ∧
      ∀ name, full.entry? (place ++ [name]) = none

theorem Pruned.extends (hpruned : Pruned gone tree full) : Extends tree full := by
  refine ⟨hpruned.workingDir, fun place entry hentry => ?_⟩
  rcases hpruned.entries place with hsame | ⟨-, hnone, -, -⟩
  · exact hsame.symm.trans hentry
  · cases hnone.symm.trans hentry

theorem Pruned.mono {others : Location → Prop} (hpruned : Pruned gone tree full)
    (hgone : ∀ place, gone place → others place) : Pruned others tree full :=
  ⟨hpruned.workingDir, fun place =>
    (hpruned.entries place).imp_right fun ⟨hplace, hnone, hdir, hempty⟩ => ⟨hgone place hplace, hnone, hdir, hempty⟩⟩

/-- Directories that are removed one after another are removed at once, if none is inside another. -/
theorem Pruned.trans {middle : FileTree} (hfirst : Pruned gone tree middle) (hsecond : Pruned gone middle full)
    (hapart : ∀ place name, gone place → ¬ gone (place ++ [name])) : Pruned gone tree full := by
  refine ⟨hsecond.workingDir.trans hfirst.workingDir, fun place => ?_⟩
  rcases hfirst.entries place with hsame | ⟨hplace, hnone, hdir, hempty⟩
  · rw [hsame]
    exact hsecond.entries place
  · refine Or.inr ⟨hplace, hnone, hsecond.extends.entries place .dir hdir, fun name => ?_⟩
    rcases hsecond.entries (place ++ [name]) with hsame | ⟨hchild, -⟩
    · exact hsame.symm.trans (hempty name)
    · exact absurd hchild (hapart place name hplace)

theorem Pruned.dir_of_child (hpruned : Pruned gone tree full) (hdir : full.entry? place = some .dir)
    (hchild : full.entry? (place ++ [name]) ≠ none) : tree.entry? place = some .dir := by
  rcases hpruned.entries place with hsame | ⟨-, -, -, hempty⟩
  · exact hsame.trans hdir
  · exact absurd (hempty name) hchild

theorem Pruned.dir_dropLast (hpruned : Pruned gone tree full) (hground : full.Grounded place) :
    tree.entry? place.dropLast = some .dir := by
  rcases List.eq_nil_or_concat place with rfl | ⟨upper, name, rfl⟩
  · rfl
  · rw [List.concat_eq_append] at hground ⊢
    rw [List.dropLast_concat]
    have hchild : full.entry? (upper ++ [name]) ≠ none := by
      rw [hground _ List.prefix_rfl]
      simp
    exact hpruned.dir_of_child (hground upper (List.prefix_append _ _)) hchild

theorem Pruned.put_dir (hpruned : Pruned gone tree full) (hvacant : tree.entry? location = none)
    (hdir : full.entry? location = some .dir) : Pruned gone (tree.put location .dir) full := by
  have hroot : location ≠ [] := by
    rintro rfl
    cases hvacant
  refine ⟨hpruned.workingDir, fun place => ?_⟩
  rw [entry?_put hroot]
  split
  next heq => exact Or.inl (heq ▸ hdir.symm)
  next => exact hpruned.entries place

/-! ## Walks -/

theorem Passable.grounded (hpassable : tree.Passable place steps) (hplace : tree.Grounded place) :
    tree.Grounded (steps.foldl Location.follow place) := by
  induction steps generalizing place with
  | nil => exact hplace
  | cons step steps ih =>
      by_cases hname : ∃ name, step = .name name
      · obtain ⟨name, rfl⟩ := hname
        exact ih hpassable.2.2 (hplace.concat hpassable.2.1)
      · rw [passable_cons (not_exists.mp hname)] at hpassable
        exact ih hpassable (hplace.follow (not_exists.mp hname))

theorem passable_of_here (hsteps : ∀ step ∈ steps, step = .here) : tree.Passable place steps := by
  induction steps with
  | nil => trivial
  | cons step steps ih =>
      obtain ⟨rfl, hrest⟩ := List.forall_mem_cons.mp hsteps
      exact ih hrest

/-- Steps that pass directories lead on from where they end. -/
theorem walkWith_append (hgoal : goal ≠ .creation) (hpassable : tree.Passable place steps) :
    walkWith tree goal onLink place (steps ++ rest) =
      walkWith tree goal onLink (steps.foldl Location.follow place) rest := by
  induction steps generalizing place with
  | nil => rfl
  | cons step steps ih =>
      rw [List.cons_append]
      by_cases hname : ∃ name, step = .name name
      · obtain ⟨name, rfl⟩ := hname
        obtain ⟨hshort, hdir, hpassable⟩ := hpassable
        rw [walkWith, if_neg (by simp [hgoal]), if_neg (Nat.not_lt.mpr hshort), hdir]
        exact ih hpassable
      · rw [passable_cons (not_exists.mp hname)] at hpassable
        rw [walkWith_cons (not_exists.mp hname), ih hpassable, List.foldl_cons]

/-- Where directories were removed, nothing is found behind the first of them. -/
theorem Pruned.walkWith_notFound (hpruned : Pruned gone tree full) (hgoal : goal ≠ .creation)
    (hrest : rest ≠ []) (hfull : full.Passable place steps) (hstuck : ¬ tree.Passable place steps) :
    walkWith tree goal onLink place (steps ++ rest) = .error .notFound := by
  induction steps generalizing place with
  | nil => exact absurd trivial hstuck
  | cons step steps ih =>
      rw [List.cons_append]
      by_cases hname : ∃ name, step = .name name
      · obtain ⟨name, rfl⟩ := hname
        obtain ⟨hshort, hdir, hfull⟩ := hfull
        rw [walkWith, if_neg (by simp [hgoal]), if_neg (Nat.not_lt.mpr hshort)]
        rcases hpruned.entries (place ++ [name]) with hsame | ⟨-, hnone, -, -⟩
        · rw [hsame, hdir]
          exact ih hfull fun hpassable => hstuck ⟨hshort, hsame.trans hdir, hpassable⟩
        · rw [hnone]
          simp [hrest]
      · rw [passable_cons (not_exists.mp hname)] at hfull hstuck
        rw [walkWith_cons (not_exists.mp hname)]
        exact ih hfull hstuck

theorem spot_of_acceptable (haccept : Acceptable path) (goal : Goal) (ending : List Step) :
    tree.spot goal ending path = walk tree goal mostLinks (tree.startOf path) (path.steps ++ ending) := by
  rw [spot, if_neg (by simpa using haccept.noNul), if_neg (by simp [haccept.ne_nil]),
    if_neg (Nat.not_lt.mpr haccept.short)]

/-- The directory that a path leads to is seen with and without the separator at the end of the path. -/
theorem spot_of_isDir (hfree : tree.LinkFree) (hdir : tree.isDir path = true) :
    tree.spot .itself [] path = .ok (.entry (tree.placeOf path) .dir) := by
  obtain ⟨location, hfind⟩ := isDir_iff.mp hdir
  obtain ⟨onLink, hwalk⟩ := exists_walk_eq tree .itself
  rw [spot_of_acceptable (spot_eq_ok_iff.mp (find_eq_ok_iff.mp hfind)).1, hwalk,
    walkWith_append (by simp) (passable_of_isDir hfree hdir), walkWith, ← placeOf,
    (entry?_of_find hfree hfind).2]

end FileTree

namespace Change

open FileTree

variable {gone : Location → Prop} {tree full : FileTree} {path : Path} {front : List Step} {last : Step}

/-- A path that leads to a directory and bears its name cannot be created, and need not be. -/
theorem makeDir_of_entry (place : Location) (haccept : Acceptable path) (hending : path.ending = [])
    (hwalk : ∀ goal onLink, goal ≠ .creation →
      walkWith tree goal onLink (tree.startOf path) path.steps = .ok (.entry place .dir)) :
    makeDir path tree = .error .occupied tree ∧ tree.isDir path = true := by
  have hspot (goal : Goal) (hgoal : goal ≠ .creation) :
      tree.spot goal [] path = .ok (.entry place .dir) := by
    obtain ⟨onLink, hwalkWith⟩ := exists_walk_eq tree goal
    rw [spot_of_acceptable haccept, hwalkWith, List.append_nil]
    exact hwalk goal onLink hgoal
  refine ⟨by rw [makeDir, hspot .itself (by simp)], isDir_iff.mpr ⟨place, find_eq_ok_iff.mpr ?_⟩⟩
  rw [locate, hending]
  exact hspot .target (by simp)

/-- With the directories above it, a directory that was there is created or is still there. -/
theorem makeDir_of_pruned (hpruned : Pruned gone tree full)
    (hground : full.Grounded full.workingDir) (haccept : Acceptable path) (hending : path.ending = [])
    (hsteps : path.steps = front ++ [last]) (hlast : last = .up ∨ ∃ name, last = .name name)
    (hfull : full.Passable (full.startOf path) path.steps)
    (hfront : tree.Passable (tree.startOf path) front) :
    (∃ next, makeDir path tree = .ok () next ∧ Pruned gone next full) ∨
      makeDir path tree = .error .occupied tree ∧ tree.isDir path = true := by
  have hstart : full.startOf path = tree.startOf path := startOf_congr hpruned.workingDir path
  rw [hsteps, passable_append, hstart] at hfull
  have hwalk (goal : Goal) (onLink : Location → List Step → Except Fault Spot) (hgoal : goal ≠ .creation) :
      walkWith tree goal onLink (tree.startOf path) path.steps =
        walkWith tree goal onLink (front.foldl Location.follow (tree.startOf path)) [last] := by
    rw [hsteps, walkWith_append hgoal hfront]
  rcases hlast with rfl | ⟨name, rfl⟩
  · -- a step up leads to a directory that holds one
    have hdir := hpruned.dir_dropLast (hfull.1.grounded (hstart ▸ hground.startOf path))
    refine Or.inr (makeDir_of_entry (front.foldl Location.follow (tree.startOf path)).dropLast haccept
      hending fun goal onLink hgoal => ?_)
    rw [hwalk goal onLink hgoal, walkWith, walkWith, hdir]
  · obtain ⟨hshort, hdir, -⟩ := hfull.2
    rcases hpruned.entries (front.foldl Location.follow (tree.startOf path) ++ [name]) with
      hsame | ⟨-, hnone, -, -⟩
    · refine Or.inr (makeDir_of_entry (front.foldl Location.follow (tree.startOf path) ++ [name])
        haccept hending fun goal onLink hgoal => ?_)
      rw [hwalk goal onLink hgoal, walkWith, if_neg (by simp [hgoal]), if_neg (Nat.not_lt.mpr hshort),
        hsame, hdir]
      dsimp only
      rw [walkWith, hsame, hdir]
    · refine Or.inl ⟨_, ?_, hpruned.put_dir hnone hdir⟩
      obtain ⟨onLink, hwalkWith⟩ := exists_walk_eq tree .itself
      rw [makeDir, spot_of_acceptable haccept, hwalkWith, List.append_nil,
        hwalk .itself onLink (by simp), walkWith, if_neg (by simp), if_neg (Nat.not_lt.mpr hshort), hnone]
      rfl

/-- The first path of a lineage is created, or it leads to a directory. -/
theorem makeLineage_of_pruned {paths : List Path}
    (hupper : ¬ tree.Passable (tree.startOf path) front → ∃ middle, makeLineage paths tree = .ok () middle ∧
      Pruned gone middle full ∧ middle.Passable (middle.startOf path) front)
    (hpruned : Pruned gone tree full) (hground : full.Grounded full.workingDir)
    (haccept : Acceptable path) (hending : path.ending = []) (hsteps : path.steps = front ++ [last])
    (hlast : last = .up ∨ ∃ name, last = .name name)
    (hfull : full.Passable (full.startOf path) path.steps) :
    ∃ next, makeLineage (path :: paths) tree = .ok () next ∧ Pruned gone next full := by
  unfold makeLineage
  by_cases hfront : tree.Passable (tree.startOf path) front
  · rcases makeDir_of_pruned hpruned hground haccept hending hsteps hlast hfull hfront with
      ⟨next, hmake, hnext⟩ | ⟨hmake, hdir⟩
    · exact ⟨next, by rw [hmake], hnext⟩
    · exact ⟨tree, by simp [hmake, hdir], hpruned⟩
  · have hmissing : makeDir path tree = .error .notFound tree := by
      obtain ⟨onLink, hwalkWith⟩ := exists_walk_eq tree .itself
      rw [hsteps, passable_append, startOf_congr hpruned.workingDir] at hfull
      rw [makeDir, spot_of_acceptable haccept, hwalkWith, List.append_nil, hsteps,
        hpruned.walkWith_notFound (by simp) (by simp) hfull.1 hfront]
    obtain ⟨middle, hlineage, hmiddle, hreached⟩ := hupper hfront
    rw [hmissing]
    dsimp only
    rw [hlineage]
    dsimp only
    rcases makeDir_of_pruned hmiddle hground haccept hending hsteps hlast hfull hreached with
      ⟨next, hmake, hnext⟩ | ⟨hmake, hdir⟩
    · exact ⟨next, by rw [hmake], hnext⟩
    · exact ⟨middle, by simp [hmake, hdir], hmiddle⟩

/-- Where a path led through directories they are created again. -/
theorem makeDirAll_of_pruned (hpruned : Pruned gone tree full) (hplain : tree.Plain)
    (hground : full.Grounded full.workingDir) (haccept : Acceptable path) (hpath : Path.Tidy path)
    (hfull : full.Passable (full.startOf path) path.steps) :
    ∃ next, makeDirAll path tree = .ok () next ∧ Pruned gone next full ∧
      next.Passable (next.startOf path) path.steps := by
  induction hlength : path.length using Nat.strong_induction_on generalizing path with
  | _ length ih =>
    subst hlength
    obtain ⟨parent, hparent, habove⟩ := hpath.exists_above
    obtain ⟨idle, last, hsteps, hidle, hlast⟩ := habove.steps
    obtain ⟨next, hmake, hnext⟩ : ∃ next, makeLineage (path :: parent.lineage) tree = .ok () next ∧
        Pruned gone next full := by
      refine makeLineage_of_pruned (fun hstuck => ?_) hpruned hground haccept hpath.ending_eq hsteps
        hlast hfull
      rcases habove.tidy with htidy | hhere
      · have hupper : full.Passable (full.startOf parent) parent.steps := by
          rw [hsteps, List.append_assoc, passable_append, ← startOf_onWay habove.onWay] at hfull
          exact hfull.1
        have hshorter := Path.length_lt_of_parent? hparent
        have hparentAccept : Acceptable parent := by
          obtain ⟨rest, -, htext⟩ := Path.exists_eq_append_of_parent? hparent
          exact Path.acceptable_of_append (htext ▸ haccept) htidy.ne_nil
        obtain ⟨middle, hmake, hmiddle, hreached⟩ := ih _ hshorter hparentAccept htidy hupper rfl
        refine ⟨middle, hmake, hmiddle, ?_⟩
        rw [passable_append, ← startOf_onWay habove.onWay]
        exact ⟨hreached, passable_of_here hidle⟩
      · -- a parent that stays where it starts cannot be stuck
        refine absurd (passable_of_here fun step hstep => ?_) hstuck
        exact (List.mem_append.mp hstep).elim (hhere step) (hidle step)
    rw [makeDirAll, Path.lineage_eq hparent]
    refine ⟨next, hmake, hnext, passable_of_makeLineage hplain (fun upper hupper => ?_) hmake⟩
    exact (Path.onWay_of_mem_lineage hupper).trans habove.onWay

/-- A directory that is there is not created. -/
theorem makeDirAll_of_isDir (hfree : tree.LinkFree) (hdir : tree.isDir path = true) :
    makeDirAll path tree = .ok () tree := by
  rw [makeDirAll]
  rcases Path.lineage_cases path with ⟨hlineage, -⟩ | ⟨upper, hlineage⟩
  · rw [hlineage]
    rfl
  · rw [hlineage]
    unfold makeLineage
    simp [makeDir, spot_of_isDir hfree hdir, hdir]

end Change

/-! ## Trees that have grown -/

namespace FileTree

/-- Entries were added behind the others, where nothing was. -/
structure Grown (before after : FileTree) : Prop where
  workingDir : after.workingDir = before.workingDir
  entries : ∃ more, after.entries = before.entries ++ more ∧
    ∀ pair ∈ more, pair.1 ≠ [] ∧ before.entry? pair.1 = none

variable {before after : FileTree} {entries : List (Location × Entry)} {location : Location} {entry : Entry}

theorem putEntry_of_vacant (hvacant : entries.lookup location = none) :
    putEntry location entry entries = entries ++ [(location, entry)] := by
  induction entries with
  | nil => rfl
  | cons pair entries ih =>
      obtain ⟨place, old⟩ := pair
      rw [lookup_cons_ite] at hvacant
      split at hvacant
      · cases hvacant
      next hne =>
        rw [putEntry, if_neg (Ne.symm hne), ih hvacant]
        rfl

theorem Grown.refl (tree : FileTree) : Grown tree tree := ⟨rfl, [], (List.append_nil _).symm, by simp⟩

theorem Grown.vacant (hgrown : Grown before after) (hvacant : after.entry? location = none) :
    before.entry? location = none := by
  obtain ⟨-, more, hentries, -⟩ := hgrown
  have hroot : location ≠ [] := by
    rintro rfl
    cases hvacant
  rw [entry?_of_ne_nil hroot] at hvacant ⊢
  rw [hentries, List.lookup_append, Option.or_eq_none_iff] at hvacant
  exact hvacant.1

theorem Grown.put (hgrown : Grown before after) (hvacant : after.entry? location = none) :
    Grown before (after.put location entry) := by
  have hbefore := hgrown.vacant hvacant
  obtain ⟨hworking, more, hentries, hmore⟩ := hgrown
  have hroot : location ≠ [] := by
    rintro rfl
    cases hvacant
  rw [entry?_of_ne_nil hroot] at hvacant
  refine ⟨hworking, more ++ [(location, entry)], ?_, fun pair hpair => ?_⟩
  · rw [FileTree.put, putEntry_of_vacant hvacant, hentries, List.append_assoc]
  · rcases List.mem_append.mp hpair with hpair | hpair
    · exact hmore pair hpair
    · rw [List.mem_singleton.mp hpair]
      exact ⟨hroot, hbefore⟩

/-- What is removed again was added. -/
theorem Grown.erase (hgrown : Grown before after) (hvacant : before.entry? location = none) :
    Grown before (after.erase location) := by
  obtain ⟨hworking, more, hentries, hmore⟩ := hgrown
  have hroot : location ≠ [] := by
    rintro rfl
    cases hvacant
  rw [entry?_of_ne_nil hroot, List.lookup_eq_none_iff] at hvacant
  refine ⟨hworking, more.filter fun pair => pair.1 ≠ location, ?_, fun pair hpair => ?_⟩
  · rw [FileTree.erase, hentries, List.filter_append]
    refine congrArg (· ++ _) (List.filter_eq_self.mpr fun pair hpair => ?_)
    exact decide_eq_true (Ne.symm (bne_iff_ne.mp (hvacant pair hpair)))
  · exact hmore pair (List.mem_of_mem_filter hpair)

/-- Where nothing new is seen nothing was added. -/
theorem Grown.eq (hgrown : Grown before after) (hsame : ∀ place, after.entry? place = before.entry? place) :
    after = before := by
  obtain ⟨hworking, more, hentries, hmore⟩ := hgrown
  obtain ⟨workingDir, entries⟩ := after
  obtain rfl : more = [] := by
    by_contra hne
    obtain ⟨pair, rest, rfl⟩ := List.exists_cons_of_ne_nil hne
    obtain ⟨hroot, hvacant⟩ := hmore pair List.mem_cons_self
    have hnone := (hsame pair.1).trans hvacant
    rw [entry?_of_ne_nil hroot, List.lookup_eq_none_iff] at hnone
    have hkey := hnone pair (by rw [hentries]; simp)
    simp at hkey
  rw [List.append_nil] at hentries
  cases hworking
  cases hentries
  rfl

end FileTree

theorem Change.keeps_grown_makeDirAll {before : FileTree} (path : Path) :
    (Change.makeDirAll path).Keeps (FileTree.Grown before) :=
  Change.keeps_makeLineage fun upper _ => Change.keeps_makeDir (fun _ _ hgrown hvacant => hgrown.put hvacant) upper

end ServiceScaffold
