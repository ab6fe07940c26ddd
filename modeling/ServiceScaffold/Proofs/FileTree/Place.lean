import ServiceScaffold.Proofs.FileTree.Entry
import ServiceScaffold.Proofs.Path

/-! # Places

In a tree without symbolic links a path can be read off its text: each name leads one directory
down and `..` leads one up. So a path that leads anywhere leads to the place that it names, and
whether it leads anywhere depends on the directories alone, as long as what stands at that place
does not change.
-/

namespace ServiceScaffold

/-- The place that a step leads to if no name is that of a symbolic link. -/
def Location.follow (place : Location) : Step → Location
  | .here | .close => place
  | .up => place.dropLast
  | .name name => place ++ [name]

namespace FileTree

variable {tree other : FileTree} {goal : Goal} {onLink : Location → List Step → Except Fault Spot}
variable {place : Location} {steps rest : List Step} {spot : Spot} {path : Path} {name : Text}

/-- The place that a path names: each of its names leads one down, and `..` leads one up. -/
def placeOf (tree : FileTree) (path : Path) : Location :=
  path.steps.foldl Location.follow (tree.startOf path)

theorem startOf_congr (hworking : other.workingDir = tree.workingDir) (path : Path) :
    other.startOf path = tree.startOf path := by
  rw [startOf, startOf, hworking]

theorem placeOf_congr (hworking : other.workingDir = tree.workingDir) (path : Path) :
    other.placeOf path = tree.placeOf path := by
  rw [placeOf, placeOf, startOf_congr hworking]

/-- What stands at a place. -/
def spotAt (tree : FileTree) (place : Location) : Spot :=
  match tree.entry? place with
  | some entry => .entry place entry
  | none => .vacancy place

theorem spotAt_congr (hplace : other.entry? place = tree.entry? place) :
    other.spotAt place = tree.spotAt place := by rw [spotAt, spotAt, hplace]

theorem spotAt_eq_entry_iff {location : Location} {entry : Entry} :
    tree.spotAt place = .entry location entry ↔
      place = location ∧ tree.entry? place = some entry := by
  unfold spotAt
  split <;> simp_all

theorem spotAt_eq_vacancy_iff {location : Location} :
    tree.spotAt place = .vacancy location ↔ place = location ∧ tree.entry? place = none := by
  unfold spotAt
  split <;> simp_all

theorem LinkFree.entry?_ne_link (hfree : tree.LinkFree) (place : Location) (target : Path) :
    tree.entry? place ≠ some (.link target) := by
  intro hlink
  by_cases hroot : place = []
  · subst hroot
    cases hlink
  · exact hfree _ (mem_entries hroot hlink) target rfl

/-! ## Steps -/

theorem walkWith_nil :
    walkWith tree goal onLink place [] = .ok spot ↔
      spot = tree.spotAt place ∧ tree.entry? place ≠ none := by
  rw [walkWith, spotAt]
  cases tree.entry? place <;> simp [eq_comm]

/-- A step that is no name moves without a look at the tree. -/
theorem walkWith_cons {step : Step} (hstep : ∀ name, step ≠ .name name) :
    walkWith tree goal onLink place (step :: rest) =
      walkWith tree goal onLink (place.follow step) rest := by
  cases step with
  | here => rfl
  | up => rfl
  | name name => exact absurd rfl (hstep name)
  | close => rfl

/-- Whether a name with these steps behind it leads to a spot, by what bears the name. -/
def NameLeads (tree : FileTree) (goal : Goal) (onLink : Location → List Step → Except Fault Spot)
    (place : Location) (name : Text) (rest : List Step) (spot : Spot) : Option Entry → Prop
  | none => rest = [] ∧ spot = .vacancy (place ++ [name])
  | some .dir => walkWith tree goal onLink (place ++ [name]) rest = .ok spot
  | some (.file content) => rest = [] ∧ spot = .entry (place ++ [name]) (.file content)
  | some (.link target) =>
    if rest = [] ∧ goal = .itself then spot = .entry (place ++ [name]) (.link target)
    else onLink (if target.isAbsolute then [] else place) (target.steps ++ target.ending ++ rest) = .ok spot

theorem walkWith_name_iff : walkWith tree goal onLink place (.name name :: rest) = .ok spot ↔
    ¬(goal = .creation ∧ rest = [.close]) ∧ Text.byteLength name ≤ longestName ∧
      NameLeads tree goal onLink place name rest spot (tree.entry? (place ++ [name])) := by
  rw [walkWith]
  by_cases hclosed : goal = .creation ∧ rest = [.close]
  · simp [hclosed]
  by_cases hshort : Text.byteLength name ≤ longestName
  · rw [if_neg (by simpa using hclosed), if_neg (by omega)]
    simp only [hclosed, hshort, not_false_eq_true, true_and]
    cases tree.entry? (place ++ [name]) with
    | none => cases rest <;> simp [NameLeads, eq_comm]
    | some entry =>
        cases entry with
        | dir => rfl
        | file content => cases rest <;> simp [NameLeads, eq_comm]
        | link target =>
            by_cases hitself : rest = [] ∧ goal = .itself
            · simp [NameLeads, hitself, eq_comm]
            · rw [NameLeads, if_neg hitself]
              dsimp only
              rw [if_neg (by simpa using hitself)]
  · rw [if_neg (by simpa using hclosed), if_pos (by omega)]
    simp [hshort]

/-- A name leads to what stands at its place if it is the last step, and else it has to be that of a
directory. -/
theorem walkWith_name (hfree : tree.LinkFree) :
    walkWith tree goal onLink place (.name name :: rest) = .ok spot ↔
      ¬(goal = .creation ∧ rest = [.close]) ∧ Text.byteLength name ≤ longestName ∧
        (rest = [] ∧ spot = tree.spotAt (place ++ [name]) ∨
          rest ≠ [] ∧ tree.entry? (place ++ [name]) = some .dir ∧
            walkWith tree goal onLink (place ++ [name]) rest = .ok spot) := by
  rw [walkWith_name_iff]
  refine and_congr_right fun _ => and_congr_right fun _ => ?_
  by_cases hrest : rest = []
  · subst hrest
    cases hentry : tree.entry? (place ++ [name]) with
    | none => simp [NameLeads, spotAt, hentry]
    | some entry =>
        cases entry with
        | dir => simp [NameLeads, walkWith_nil, hentry]
        | file content => simp [NameLeads, spotAt, hentry]
        | link target => exact absurd hentry (hfree.entry?_ne_link _ target)
  · cases hentry : tree.entry? (place ++ [name]) with
    | none => simp [NameLeads, hrest]
    | some entry =>
        cases entry with
        | dir => simp [NameLeads, hrest]
        | file content => simp [NameLeads, hrest]
        | link target => exact absurd hentry (hfree.entry?_ne_link _ target)

/-! ## Where a path leads -/

/-- Steps that lead anywhere lead to the place that they name. -/
theorem walkWith_spot (hfree : tree.LinkFree)
    (hwalk : walkWith tree goal onLink place steps = .ok spot) :
    spot = tree.spotAt (steps.foldl Location.follow place) := by
  induction steps generalizing place with
  | nil => exact (walkWith_nil.mp hwalk).1
  | cons step rest ih =>
      by_cases hname : ∃ name, step = .name name
      · obtain ⟨name, rfl⟩ := hname
        rcases ((walkWith_name hfree).mp hwalk).2.2 with ⟨rfl, hspot⟩ | ⟨-, -, hrest⟩
        · exact hspot
        · exact ih hrest
      · rw [walkWith_cons (not_exists.mp hname)] at hwalk
        exact ih hwalk

/-- Two trees with the same directories, as seen from one working directory. -/
structure SameDirs (tree other : FileTree) : Prop where
  workingDir : other.workingDir = tree.workingDir
  dirs : ∀ place, other.entry? place = some .dir ↔ tree.entry? place = some .dir

theorem SameDirs.refl (tree : FileTree) : SameDirs tree tree := ⟨rfl, fun _ => Iff.rfl⟩

theorem SameDirs.symm (hsame : SameDirs tree other) : SameDirs other tree :=
  ⟨hsame.workingDir.symm, fun place => (hsame.dirs place).symm⟩

theorem SameDirs.placeOf_eq (hsame : SameDirs tree other) (path : Path) :
    other.placeOf path = tree.placeOf path := placeOf_congr hsame.workingDir path

/-- Where the directories are the same, steps that lead to a place lead there in both trees if it
holds the same in both. What would be done at a link does not matter, and nor does the goal unless a
file is to be created. -/
theorem walkWith_congr {otherGoal : Goal} {otherLink : Location → List Step → Except Fault Spot}
    (hgoal : otherGoal = .creation → goal = .creation)
    (hfree : tree.LinkFree) (hother : other.LinkFree) (hsame : SameDirs tree other)
    (hplace : other.entry? (steps.foldl Location.follow place) =
      tree.entry? (steps.foldl Location.follow place))
    (hwalk : walkWith tree goal onLink place steps = .ok spot) :
    walkWith other otherGoal otherLink place steps = .ok spot := by
  induction steps generalizing place with
  | nil =>
      obtain ⟨hspot, hentry⟩ := walkWith_nil.mp hwalk
      rw [List.foldl_nil] at hplace
      exact walkWith_nil.mpr ⟨hspot.trans (spotAt_congr hplace).symm, hplace ▸ hentry⟩
  | cons step rest ih =>
      by_cases hname : ∃ name, step = .name name
      · obtain ⟨name, rfl⟩ := hname
        obtain ⟨hopen, hlong, hway⟩ := (walkWith_name hfree).mp hwalk
        have hclosed : ¬(otherGoal = .creation ∧ rest = [.close]) := fun hclosed =>
          hopen ⟨hgoal hclosed.1, hclosed.2⟩
        obtain ⟨rfl, hspot⟩ | ⟨hrest, hdir, hwalk⟩ := hway
        · have hlast := hspot.trans (spotAt_congr hplace).symm
          exact (walkWith_name hother).mpr ⟨hclosed, hlong, Or.inl ⟨rfl, hlast⟩⟩
        · refine (walkWith_name hother).mpr ⟨hclosed, hlong, Or.inr ⟨hrest, ?_, ih hplace hwalk⟩⟩
          exact (hsame.dirs _).mpr hdir
      · rw [walkWith_cons (not_exists.mp hname)] at hwalk ⊢
        exact ih hplace hwalk

/-- All names of the steps are those of directories. -/
def Passable (tree : FileTree) : Location → List Step → Prop
  | _, [] => True
  | place, .name name :: rest =>
    Text.byteLength name ≤ longestName ∧ tree.entry? (place ++ [name]) = some .dir ∧
      Passable tree (place ++ [name]) rest
  | place, step :: rest => Passable tree (place.follow step) rest

theorem passable_cons {step : Step} (hstep : ∀ name, step ≠ .name name) :
    tree.Passable place (step :: rest) ↔ tree.Passable (place.follow step) rest := by
  cases step with
  | name name => exact absurd rfl (hstep name)
  | _ => rfl

theorem passable_append :
    tree.Passable place (steps ++ rest) ↔
      tree.Passable place steps ∧ tree.Passable (steps.foldl Location.follow place) rest := by
  induction steps generalizing place with
  | nil => simp [Passable]
  | cons step steps ih =>
      by_cases hname : ∃ name, step = .name name
      · obtain ⟨name, rfl⟩ := hname
        simp only [List.cons_append, Passable, ih, List.foldl_cons, and_assoc]
        rfl
      · rw [List.cons_append, passable_cons (not_exists.mp hname),
          passable_cons (not_exists.mp hname), ih, List.foldl_cons]

theorem SameDirs.passable_iff (hsame : SameDirs tree other) :
    other.Passable place steps ↔ tree.Passable place steps := by
  induction steps generalizing place with
  | nil => rfl
  | cons step steps ih =>
      by_cases hname : ∃ name, step = .name name
      · obtain ⟨name, rfl⟩ := hname
        rw [Passable, Passable, hsame.dirs, ih]
      · rw [passable_cons (not_exists.mp hname), passable_cons (not_exists.mp hname), ih]

/-- Where directories stay directories they can still be passed. -/
theorem Passable.mono (hdirs : ∀ place, tree.entry? place = some .dir → other.entry? place = some .dir)
    (hpassable : tree.Passable place steps) : other.Passable place steps := by
  induction steps generalizing place with
  | nil => trivial
  | cons step steps ih =>
      by_cases hname : ∃ name, step = .name name
      · obtain ⟨name, rfl⟩ := hname
        exact ⟨hpassable.1, hdirs _ hpassable.2.1, ih hpassable.2.2⟩
      · rw [passable_cons (not_exists.mp hname)] at hpassable ⊢
        exact ih hpassable

/-- Steps that end in a name lead somewhere exactly when those before it pass directories. -/
theorem walkWith_append_name (hfree : tree.LinkFree) :
    walkWith tree goal onLink place (steps ++ [.name name]) = .ok spot ↔
      tree.Passable place steps ∧ Text.byteLength name ≤ longestName ∧
        spot = tree.spotAt (steps.foldl Location.follow place ++ [name]) := by
  induction steps generalizing place with
  | nil => simp [walkWith_name hfree, Passable]
  | cons step steps ih =>
      by_cases hname : ∃ first, step = .name first
      · obtain ⟨first, rfl⟩ := hname
        have hrest : steps ++ [.name name] ≠ [.close] := by
          cases steps <;> simp
        rw [List.cons_append, walkWith_name hfree, ih, Passable]
        simp only [hrest, and_false, not_false_eq_true, true_and, ne_eq, List.append_eq_nil_iff,
          List.cons_ne_nil, false_and, false_or, List.foldl_cons, and_assoc]
        rfl
      · rw [List.cons_append, walkWith_cons (not_exists.mp hname), ih,
          passable_cons (not_exists.mp hname), List.foldl_cons]

/-- A vacancy is what the last name leads to. -/
theorem last_of_walkWith_vacancy (hfree : tree.LinkFree) {location : Location}
    (hwalk : walkWith tree goal onLink place steps = .ok (.vacancy location)) :
    ∃ front name, steps = front ++ [.name name] := by
  induction steps generalizing place with
  | nil =>
      obtain ⟨hspot, hentry⟩ := walkWith_nil.mp hwalk
      unfold spotAt at hspot
      split at hspot
      · cases hspot
      next hvacant => exact absurd hvacant hentry
  | cons step rest ih =>
      by_cases hname : ∃ name, step = .name name
      · obtain ⟨name, rfl⟩ := hname
        rcases ((walkWith_name hfree).mp hwalk).2.2 with ⟨rfl, -⟩ | ⟨-, -, hrest⟩
        · exact ⟨[], name, rfl⟩
        · obtain ⟨front, last, rfl⟩ := ih hrest
          exact ⟨.name name :: front, last, rfl⟩
      · rw [walkWith_cons (not_exists.mp hname)] at hwalk
        obtain ⟨front, last, rfl⟩ := ih hwalk
        exact ⟨step :: front, last, rfl⟩

/-- Steps that lead to a directory pass directories only. -/
theorem passable_of_walkWith_dir (hfree : tree.LinkFree) {location : Location}
    (hwalk : walkWith tree goal onLink place steps = .ok (.entry location .dir)) :
    tree.Passable place steps := by
  induction steps generalizing place with
  | nil => trivial
  | cons step rest ih =>
      by_cases hname : ∃ name, step = .name name
      · obtain ⟨name, rfl⟩ := hname
        obtain ⟨-, hlong, ⟨rfl, hspot⟩ | ⟨-, hdir, hrest⟩⟩ := (walkWith_name hfree).mp hwalk
        · exact ⟨hlong, (spotAt_eq_entry_iff.mp hspot.symm).2, trivial⟩
        · exact ⟨hlong, hdir, ih hrest⟩
      · rw [walkWith_cons (not_exists.mp hname)] at hwalk
        exact (passable_cons (not_exists.mp hname)).mpr (ih hwalk)

end FileTree

end ServiceScaffold
