import ServiceScaffold.Proofs.Run.Step

/-! # What a run keeps

A property of the tree that every operation keeps, whether it succeeds or fails, is kept by every
run that is made of such operations.
-/

namespace ServiceScaffold

/-- The state that is left behind, by a success and by a failure alike. -/
def lastState {ε σ α : Type} : EStateM.Result ε σ α → σ
  | .ok _ state => state
  | .error _ state => state

/-- The operation leaves a tree with the property if it finds one. -/
def Change.Keeps {α : Type} (holds : FileTree → Prop) (operation : Change α) : Prop :=
  ∀ tree, holds tree → holds (lastState (operation tree))

theorem Change.Keeps.of_ok {α : Type} {holds : FileTree → Prop} {operation : Change α}
    (hoperation : operation.Keeps holds) {tree next : FileTree} {value : α}
    (hok : operation tree = .ok value next) (htree : holds tree) : holds next := by
  have hlast := hoperation tree htree
  rwa [hok] at hlast

namespace Run

variable {α β : Type} {holds : FileTree → Prop}

/-- The run leaves a tree with the property if it finds one. -/
def Keeps (holds : FileTree → Prop) (run : Run α) : Prop :=
  ∀ world, holds world.tree → holds (lastState (run world)).tree

theorem Keeps.of_ok {run : Run α} (hrun : run.Keeps holds) {world after : World} {value : α}
    (hok : run world = .ok value after) (hworld : holds world.tree) : holds after.tree := by
  have hlast := hrun world hworld
  rwa [hok] at hlast

theorem keeps_pure (value : α) : Keeps holds (pure value : Run α) := fun _ hworld => hworld

theorem keeps_fail (failure : Failure) : Keeps holds (fail failure : Run α) :=
  fun _ hworld => hworld

theorem keeps_tell (notice : Notice) : Keeps holds (tell notice) := fun _ hworld => hworld

theorem keeps_log (event : Event) : Keeps holds (log event) := fun _ hworld => hworld

theorem keeps_tree : Keeps holds tree := fun _ hworld => hworld

/-- What is done with the tree has to keep the property only if the tree has it. -/
theorem keeps_tree_bind {next : FileTree → Run β} (hnext : ∀ tree, holds tree → (next tree).Keeps holds) :
    (tree >>= next).Keeps holds := fun world hworld => hnext world.tree hworld world hworld

theorem keeps_look (blame : Fault → Failure) (question : FileTree → Except Fault α) :
    Keeps holds (look blame question) := by
  intro world hworld
  unfold look
  split <;> exact hworld

theorem keeps_change {operation : Change α} (hoperation : operation.Keeps holds)
    (blame : Fault → Failure) : Keeps holds (change blame operation) := by
  intro world hworld
  have hlast := hoperation world.tree hworld
  unfold change
  split
  next hdone =>
    rw [hdone] at hlast
    exact hlast
  next hfault =>
    rw [hfault] at hlast
    exact hlast

/-- What the first step leaves has the property, and so has what the second leaves if there is one. -/
theorem holds_bind {run : Run α} {next : α → Run β} {world : World}
    (hrun : holds (lastState (run world)).tree)
    (hnext : ∀ value middle, run world = .ok value middle → holds middle.tree →
      holds (lastState (next value middle)).tree) :
    holds (lastState ((run >>= next) world)).tree := by
  cases hfirst : run world with
  | ok value middle =>
      rw [hfirst] at hrun
      rw [bind_of_ok hfirst]
      exact hnext value middle hfirst hrun
  | error failure middle =>
      rw [hfirst] at hrun
      rw [bind_of_error hfirst]
      exact hrun

theorem Keeps.bind {run : Run α} {next : α → Run β} (hrun : run.Keeps holds)
    (hnext : ∀ value, (next value).Keeps holds) : (run >>= next).Keeps holds := fun world hworld =>
  holds_bind (hrun world hworld) fun value middle _ hmiddle => hnext value middle hmiddle

theorem lastState_attempt (run : Run α) (world : World) :
    lastState (attempt run world) = lastState (run world) := by
  unfold attempt
  split
  next hrun => rw [hrun]; rfl
  next hrun => rw [hrun]; rfl

end Run

end ServiceScaffold
