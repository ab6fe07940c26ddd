import ServiceScaffold.Proofs.Run.Step

/-! # Runs and what was printed before

No step of a run reads what was printed or logged: a run adds to both and depends on the tree alone.
So a run that goes on from some world does what it would do from the same tree with nothing printed
or logged yet, and both histories stand one after the other.
-/

namespace ServiceScaffold

namespace World

/-- The later world with the history of the earlier one in front of its own. -/
def resume (earlier later : World) : World :=
  ⟨later.tree, earlier.printed ++ later.printed, earlier.logged ++ later.logged⟩

@[simp] theorem resume_tree (earlier later : World) : (earlier.resume later).tree = later.tree := rfl

theorem resume_resume (first second third : World) :
    (first.resume second).resume third = first.resume (second.resume third) := by
  simp only [resume, List.append_assoc]

theorem resume_ofTree (world : World) (tree : FileTree) :
    world.resume (.ofTree tree) = { world with tree := tree } := by
  simp only [resume, ofTree, List.append_nil]

end World

namespace Run

variable {α β : Type}

/-- The result of a run with an earlier history in front of its own. -/
def resumed (earlier : World) :
    EStateM.Result Failure World α → EStateM.Result Failure World α
  | .ok value later => .ok value (earlier.resume later)
  | .error failure later => .error failure (earlier.resume later)

/-- The run depends on the tree alone and only adds to what was printed and logged. -/
def IgnoresHistory (run : Run α) : Prop :=
  ∀ world, run world = resumed world (run (.ofTree world.tree))

theorem resumed_resumed (first second : World) (result : EStateM.Result Failure World α) :
    resumed first (resumed second result) = resumed (first.resume second) result := by
  cases result <;> simp only [resumed, World.resume_resume]

theorem ignoresHistory_pure (value : α) : IgnoresHistory (pure value : Run α) := by
  intro world
  change EStateM.Result.ok value world = .ok value (world.resume (.ofTree world.tree))
  rw [World.resume_ofTree]

theorem ignoresHistory_fail (failure : Failure) : IgnoresHistory (fail failure : Run α) := by
  intro world
  change EStateM.Result.error failure world = .error failure (world.resume (.ofTree world.tree))
  rw [World.resume_ofTree]

theorem ignoresHistory_tell (notice : Notice) : IgnoresHistory (tell notice) := by
  intro world
  simp only [tell, resumed, World.resume, World.ofTree, List.nil_append, List.append_nil]

theorem ignoresHistory_log (event : Event) : IgnoresHistory (log event) := by
  intro world
  simp only [log, resumed, World.resume, World.ofTree, List.nil_append, List.append_nil]

theorem ignoresHistory_look (blame : Fault → Failure) (question : FileTree → Except Fault α) :
    IgnoresHistory (look blame question) := by
  intro world
  unfold look
  cases hanswer : question world.tree with
  | ok value => simp only [World.ofTree, hanswer, resumed, World.resume, List.append_nil]
  | error fault => simp only [World.ofTree, hanswer, resumed, World.resume, List.append_nil]

theorem ignoresHistory_change (blame : Fault → Failure) (operation : Change α) :
    IgnoresHistory (change blame operation) := by
  intro world
  unfold change
  cases hresult : operation world.tree with
  | ok value tree => simp only [World.ofTree, hresult, resumed, World.resume, List.append_nil]
  | error fault tree => simp only [World.ofTree, hresult, resumed, World.resume, List.append_nil]

theorem IgnoresHistory.bind {run : Run α} {next : α → Run β} (hrun : run.IgnoresHistory)
    (hnext : ∀ value, (next value).IgnoresHistory) : (run >>= next).IgnoresHistory := by
  intro world
  have hworld := hrun world
  cases hfresh : run (.ofTree world.tree) with
  | ok value later =>
      rw [hfresh] at hworld
      rw [bind_of_ok hworld, bind_of_ok hfresh, hnext value (world.resume later),
        hnext value later, resumed_resumed, World.resume_tree]
  | error failure later =>
      rw [hfresh] at hworld
      rw [bind_of_error hworld, bind_of_error hfresh]
      rfl

/-- From two worlds with the same tree a run does the same, and both histories go on with it. -/
theorem IgnoresHistory.exists_resumed {run : Run α} (hrun : run.IgnoresHistory) {world other : World}
    (htree : other.tree = world.tree) :
    ∃ result, run world = resumed world result ∧ run other = resumed other result :=
  ⟨run (.ofTree world.tree), hrun world, htree ▸ hrun other⟩

/-- A run that succeeds does so from every world with the same tree, and adds the same. -/
theorem IgnoresHistory.ok_from {run : Run α} (hrun : run.IgnoresHistory) {world after : World}
    {value : α} (hok : run world = .ok value after) (other : World) (htree : other.tree = world.tree) :
    ∃ later, after = world.resume later ∧ run other = .ok value (other.resume later) := by
  obtain ⟨result, hworld, hother⟩ := hrun.exists_resumed htree
  cases result with
  | ok value later =>
      cases hok.symm.trans hworld
      exact ⟨later, rfl, hother⟩
  | error failure later => cases hok.symm.trans hworld

/-- A run that fails does so from every world with the same tree, and adds the same. -/
theorem IgnoresHistory.error_from {run : Run α} (hrun : run.IgnoresHistory) {world after : World}
    {failure : Failure} (hfail : run world = .error failure after) (other : World)
    (htree : other.tree = world.tree) :
    ∃ later, after = world.resume later ∧ run other = .error failure (other.resume later) := by
  obtain ⟨result, hworld, hother⟩ := hrun.exists_resumed htree
  cases result with
  | ok value later => cases hfail.symm.trans hworld
  | error cause later =>
      cases hfail.symm.trans hworld
      exact ⟨later, rfl, hother⟩

end Run

end ServiceScaffold
