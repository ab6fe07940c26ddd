import ServiceScaffold.Proofs.FileTree.Plain
import ServiceScaffold.Proofs.Run.Step
import ServiceScaffold.Proofs.Service.Name
import ServiceScaffold.Proofs.Text.Order
import ServiceScaffold.Service.Discovery

/-! # What is discovered

Discovery leaves the world as it is. The names that it gives are in order, every one of them is
accepted by the filter, and in a plain tree every one of them is an ordinary name.
-/

namespace ServiceScaffold

namespace ServiceFilter

variable {filter : ServiceFilter} {dir : Path} {names : List Text} {world after : World}
variable {listing : List (Text × Entry)} {name : Text}

theorem mem_select_iff : name ∈ filter.select listing ↔
    ∃ entry, (name, entry) ∈ listing ∧ entry.isFile = true ∧ filter.accepts name = true := by
  rw [select, (Text.perm_inOrder _).mem_iff]
  simp

theorem pairwise_select (filter : ServiceFilter) (listing : List (Text × Entry)) :
    (filter.select listing).Pairwise fun first second => Text.ble first second = true :=
  Text.pairwise_inOrder _

theorem discover_eq_ok (hdiscover : filter.discover dir world = .ok names after) :
    after = world ∧ (names = [] ∨
      ∃ listing, world.tree.list dir = .ok listing ∧ names = filter.select listing) := by
  obtain ⟨tree, middle, htree, hdiscover⟩ := Run.bind_eq_ok_iff.mp hdiscover
  obtain ⟨rfl, rfl⟩ := EStateM.Result.ok.inj htree
  split at hdiscover
  · obtain ⟨listing, middle, hlook, hpure⟩ := Run.bind_eq_ok_iff.mp hdiscover
    obtain ⟨hlist, rfl⟩ := Run.look_eq_ok_iff.mp hlook
    obtain ⟨rfl, rfl⟩ := Run.pure_eq_ok_iff.mp hpure
    exact ⟨rfl, Or.inr ⟨listing, hlist, rfl⟩⟩
  · obtain ⟨rfl, rfl⟩ := Run.pure_eq_ok_iff.mp hdiscover
    exact ⟨rfl, Or.inl rfl⟩

/-- What is known of discovered names. -/
structure Discovered (filter : ServiceFilter) (names : List Text) : Prop where
  sorted : names.Pairwise fun first second => Text.ble first second = true
  accepted : ∀ name ∈ names, filter.accepts name = true
  ordinary : ∀ name ∈ names, Path.IsSegment name

theorem discovered_of_discover (hplain : world.tree.Plain)
    (hdiscover : filter.discover dir world = .ok names after) : filter.Discovered names := by
  rcases (discover_eq_ok hdiscover).2 with rfl | ⟨listing, hlist, rfl⟩
  · exact ⟨.nil, by simp, by simp⟩
  · refine ⟨pairwise_select filter listing, fun name hname => ?_, fun name hname => ?_⟩
    · exact (mem_select_iff.mp hname).choose_spec.2.2
    · obtain ⟨entry, hmem, -⟩ := mem_select_iff.mp hname
      exact hplain.isSegment_of_mem_list hlist _ hmem

/-- An accepted name holds the marker before its ending, if the filter asks for it. -/
theorem exists_firstOccurrence {file : ServiceFile} (hmarker : filter.marker = serviceMarker)
    (haccepts : filter.accepts (file.logicalName ++ sourceSuffix) = true) :
    ∃ front back, Text.FirstOccurrence serviceMarker file.logicalName front back := by
  simp only [accepts, hmarker, Bool.and_eq_true] at haccepts
  exact Text.exists_firstOccurrence
    (ServiceFile.marker_infix_of_append (Text.occursIn_iff.mp haccepts.1.2))

end ServiceFilter

end ServiceScaffold
