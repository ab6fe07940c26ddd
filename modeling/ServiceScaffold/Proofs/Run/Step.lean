import ServiceScaffold.Run.Basic

/-! # Steps of a run

A run of two steps, opened at the world between them.
-/

namespace ServiceScaffold.Run

variable {α β : Type} {run : Run α} {next : α → Run β} {world : World}

/-- Did the run end with a value? -/
def isOk : EStateM.Result Failure World α → Bool
  | .ok _ _ => true
  | .error _ _ => false

theorem exists_ok_of_isOk {result : EStateM.Result Failure World α} (hok : isOk result = true) :
    ∃ value after, result = .ok value after := by
  cases result with
  | ok value after => exact ⟨value, after, rfl⟩
  | error => cases hok

theorem exists_error_of_isOk {result : EStateM.Result Failure World α} (hfail : isOk result = false) :
    ∃ failure after, result = .error failure after := by
  cases result with
  | ok => cases hfail
  | error failure after => exact ⟨failure, after, rfl⟩

/-- Did the run end with a value, and with a tree, of which `check` holds? -/
def endsIn (check : α → FileTree → Bool) : EStateM.Result Failure World α → Bool
  | .ok value after => check value after.tree
  | .error _ _ => false

theorem exists_ok_of_endsIn {check : α → FileTree → Bool} {result : EStateM.Result Failure World α}
    (hends : endsIn check result = true) :
    ∃ value after, result = .ok value after ∧ check value after.tree = true := by
  cases result with
  | ok value after => exact ⟨value, after, rfl, hends⟩
  | error => cases hends

/-- Did two runs end with values, and with trees, of which `check` holds? -/
def bothEndIn (check : α → FileTree → β → FileTree → Bool) (first : EStateM.Result Failure World α)
    (second : EStateM.Result Failure World β) : Bool :=
  endsIn (fun value tree => endsIn (check value tree) second) first

theorem exists_ok_of_bothEndIn {check : α → FileTree → β → FileTree → Bool}
    {first : EStateM.Result Failure World α} {second : EStateM.Result Failure World β}
    (hends : bothEndIn check first second = true) :
    ∃ value after other afterOther, first = .ok value after ∧ second = .ok other afterOther ∧
      check value after.tree other afterOther.tree = true := by
  obtain ⟨value, after, hfirst, hends⟩ := exists_ok_of_endsIn hends
  obtain ⟨other, afterOther, hsecond, hcheck⟩ := exists_ok_of_endsIn hends
  exact ⟨value, after, other, afterOther, hfirst, hsecond, hcheck⟩

/-- Did two runs, the second where the first left off, end with values and trees of which `check`
holds? -/
def inTurnEndIn (check : α → FileTree → β → FileTree → Bool) (first : Run α) (second : Run β)
    (world : World) : Bool :=
  match first world with
  | .ok value between => endsIn (check value between.tree) (second between)
  | .error _ _ => false

theorem exists_ok_of_inTurnEndIn {check : α → FileTree → β → FileTree → Bool} {first : Run α}
    {second : Run β} (hends : inTurnEndIn check first second world = true) :
    ∃ value between other after, first world = .ok value between ∧ second between = .ok other after ∧
      check value between.tree other after.tree = true := by
  unfold inTurnEndIn at hends
  split at hends
  next value between hfirst =>
    obtain ⟨other, after, hsecond, hcheck⟩ := exists_ok_of_endsIn hends
    exact ⟨value, between, other, after, hfirst, hsecond, hcheck⟩
  next => cases hends

theorem bind_of_ok {value : α} {later : World} (hrun : run world = .ok value later)
    (next : α → Run β) : (run >>= next) world = next value later := by
  change EStateM.bind run next world = _
  rw [EStateM.bind, hrun]

theorem bind_of_error {failure : Failure} {later : World} (hrun : run world = .error failure later)
    (next : α → Run β) : (run >>= next) world = .error failure later := by
  change EStateM.bind run next world = _
  rw [EStateM.bind, hrun]

theorem bind_eq_ok_iff {value : β} {after : World} :
    (run >>= next) world = .ok value after ↔
      ∃ first middle, run world = .ok first middle ∧ next first middle = .ok value after := by
  constructor
  · intro hok
    cases hrun : run world with
    | ok first middle => exact ⟨first, middle, rfl, bind_of_ok hrun next ▸ hok⟩
    | error failure middle => rw [bind_of_error hrun] at hok; cases hok
  · rintro ⟨first, middle, hrun, hnext⟩
    rw [bind_of_ok hrun, hnext]

theorem bind_eq_error_iff {failure : Failure} {after : World} :
    (run >>= next) world = .error failure after ↔
      run world = .error failure after ∨
        ∃ first middle, run world = .ok first middle ∧ next first middle = .error failure after := by
  constructor
  · intro herror
    cases hrun : run world with
    | ok first middle => exact Or.inr ⟨first, middle, rfl, bind_of_ok hrun next ▸ herror⟩
    | error cause middle =>
        rw [bind_of_error hrun] at herror
        cases herror
        exact Or.inl rfl
  · rintro (hrun | ⟨first, middle, hrun, hnext⟩)
    · exact bind_of_error hrun next
    · rw [bind_of_ok hrun, hnext]

theorem pure_eq_ok_iff {value result : α} {after : World} :
    (pure value : Run α) world = .ok result after ↔ value = result ∧ world = after := by
  change EStateM.Result.ok value world = .ok result after ↔ _
  rw [EStateM.Result.ok.injEq]

/-- A run that looks at the tree goes on with the one that is there. -/
theorem bind_tree (next : FileTree → Run α) : (Run.tree >>= next) world = next world.tree world := rfl

/-- Every value that the run can end with has the property. -/
def Returns (holds : α → Prop) (run : Run α) : Prop :=
  ∀ world value after, run world = .ok value after → holds value

theorem returns_pure {holds : α → Prop} {value : α} (hvalue : holds value) :
    Returns holds (pure value) := by
  intro world result after hok
  exact (pure_eq_ok_iff.mp hok).1 ▸ hvalue

theorem Returns.bind {first : α → Prop} {second : β → Prop} (hrun : run.Returns first)
    (hnext : ∀ value, first value → (next value).Returns second) :
    (run >>= next).Returns second := by
  intro world value after hok
  obtain ⟨result, middle, hresult, hok⟩ := bind_eq_ok_iff.mp hok
  exact hnext result (hrun world result middle hresult) middle value after hok

theorem Returns.of_next {second : β → Prop} (hnext : ∀ value, (next value).Returns second) :
    (run >>= next).Returns second :=
  Returns.bind (fun _ _ _ _ => trivial) fun value _ => hnext value

theorem look_of_error {question : FileTree → Except Fault α} {fault : Fault}
    (blame : Fault → Failure) (hfault : question world.tree = .error fault) :
    look blame question world = .error (blame fault) world := by
  rw [look, hfault]

theorem look_eq_ok_iff {blame : Fault → Failure} {question : FileTree → Except Fault α} {value : α}
    {after : World} :
    look blame question world = .ok value after ↔ question world.tree = .ok value ∧ world = after := by
  unfold look
  cases question world.tree <;> simp

theorem change_of_ok {operation : Change α} {value : α} {tree next : FileTree}
    (blame : Fault → Failure) (hdone : operation tree = .ok value next) (printed : List Output)
    (logged : List Event) :
    change blame operation ⟨tree, printed, logged⟩ = .ok value ⟨next, printed, logged⟩ := by
  rw [change, hdone]

theorem change_of_error {operation : Change α} {fault : Fault} {tree next : FileTree}
    (blame : Fault → Failure) (hfault : operation tree = .error fault next) (printed : List Output)
    (logged : List Event) :
    change blame operation ⟨tree, printed, logged⟩ = .error (blame fault) ⟨next, printed, logged⟩ := by
  rw [change, hfault]

theorem tree_of_change_ok {operation : Change α} {blame : Fault → Failure} {value : α}
    {after : World} (hok : change blame operation world = .ok value after) :
    operation world.tree = .ok value after.tree := by
  unfold change at hok
  cases hdone : operation world.tree with
  | ok result tree =>
      rw [hdone] at hok
      cases hok
      rfl
  | error fault tree =>
      rw [hdone] at hok
      cases hok

theorem attempt_of_error {failure : Failure} {after : World}
    (hrun : run world = .error failure after) : attempt run world = .ok (.error failure) after := by
  rw [attempt, hrun]

theorem run_of_attempt_ok {value : α} {after : World}
    (hok : attempt run world = .ok (.ok value) after) : run world = .ok value after := by
  unfold attempt at hok
  split at hok
  next hrun =>
    cases hok
    exact hrun
  next => cases hok

theorem run_of_attempt_error {failure : Failure} {after : World}
    (hok : attempt run world = .ok (.error failure) after) : run world = .error failure after := by
  unfold attempt at hok
  split at hok
  next => cases hok
  next hrun =>
    cases hok
    exact hrun

end ServiceScaffold.Run
