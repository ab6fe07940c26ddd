import Mathlib.Data.List.Basic
import ServiceScaffold.Service.Signature

/-! # The signatures of a method map

A map that is built by inserting signatures one after another holds, for each name, the first
signature of that name, in the order of those first signatures. Inserting more signatures later
leaves what the map holds in place.
-/

namespace ServiceScaffold

/-- The items whose name no earlier item has. -/
def firstOfEach {α : Type} (name : α → Text) (items : List α) : List α :=
  items.eraseDupsBy fun item earlier => name item == name earlier

section FirstOfEach

variable {α β : Type} {name : α → Text}

@[simp] theorem firstOfEach_nil : firstOfEach name [] = [] := rfl

theorem firstOfEach_cons (item : α) (items : List α) :
    firstOfEach name (item :: items) =
      item :: firstOfEach name (items.filter fun other => name other ≠ name item) := by
  simp [firstOfEach, List.eraseDupsBy_cons, ← Bool.not_eq_true]

/-- The induction along the firsts of each name: behind an item, only the items of other names
count. -/
@[elab_as_elim] theorem firstOfEachInduction (name : α → Text) {motive : List α → Prop}
    (nil : motive [])
    (cons : ∀ item items, motive (items.filter fun other => name other ≠ name item) →
      motive (item :: items))
    (items : List α) : motive items := by
  induction hlength : items.length using Nat.strongRecOn generalizing items with
  | _ length ih =>
      cases items with
      | nil => exact nil
      | cons item items =>
          refine cons item items (ih _ ?_ _ rfl)
          rw [← hlength, List.length_cons]
          exact Nat.lt_succ_of_le (List.length_filter_le _ _)

/-- Taking the first of each name commutes with a change of what the names stand at. -/
theorem firstOfEach_map (f : β → α) (items : List β) :
    firstOfEach name (items.map f) = (firstOfEach (fun item => name (f item)) items).map f := by
  induction items using firstOfEachInduction (fun item => name (f item)) with
  | nil => rfl
  | cons item items ih =>
      rw [List.map_cons, firstOfEach_cons, List.filter_map, firstOfEach_cons, List.map_cons]
      exact congrArg (f item :: ·) ih

theorem mem_of_mem_firstOfEach {item : α} {items : List α} (hmem : item ∈ firstOfEach name items) :
    item ∈ items := by
  induction items using firstOfEachInduction name with
  | nil => exact hmem
  | cons first items ih =>
      rw [firstOfEach_cons] at hmem
      rcases List.mem_cons.mp hmem with rfl | hmem
      · exact List.mem_cons_self
      · exact List.mem_cons_of_mem _ (List.mem_filter.mp (ih hmem)).1

end FirstOfEach

namespace MethodMap

theorem mem_seen_iff {map : MethodMap} {name : Text} : name ∈ map.seen ↔ name ∈ map.names :=
  map.inStep.mem_seen_iff name

theorem insertIfAbsent_of_mem {map : MethodMap} {signature : MethodSignature}
    (hmem : signature.name ∈ map.names) : map.insertIfAbsent signature = (false, map) := by
  rw [insertIfAbsent, dif_pos (mem_seen_iff.mpr hmem)]

theorem insertIfAbsent_of_notMem {map : MethodMap} {signature : MethodSignature}
    (hmem : signature.name ∉ map.names) :
    (map.insertIfAbsent signature).1 = true ∧
      (map.insertIfAbsent signature).2.signatures = map.signatures ++ [signature] := by
  rw [insertIfAbsent, dif_neg (mem_seen_iff.not.mpr hmem)]
  exact ⟨rfl, rfl⟩

theorem insert_of_mem {map : MethodMap} {signature : MethodSignature}
    (hmem : signature.name ∈ map.names) : map.insert signature = map := by
  rw [insert, insertIfAbsent_of_mem hmem]

theorem signatures_insert_of_notMem {map : MethodMap} {signature : MethodSignature}
    (hmem : signature.name ∉ map.names) :
    (map.insert signature).signatures = map.signatures ++ [signature] :=
  (insertIfAbsent_of_notMem hmem).2

/-- An insertion keeps what the map holds at the front. -/
theorem signatures_prefix_insert (map : MethodMap) (signature : MethodSignature) :
    map.signatures <+: (map.insert signature).signatures := by
  by_cases hmem : signature.name ∈ map.names
  · simp only [insert_of_mem hmem, List.prefix_rfl]
  · rw [signatures_insert_of_notMem hmem]
    exact List.prefix_append _ _

theorem signatures_prefix_foldl (signatures : List MethodSignature) (map : MethodMap) :
    map.signatures <+: (signatures.foldl insert map).signatures := by
  induction signatures generalizing map with
  | nil => exact List.prefix_rfl
  | cons signature signatures ih =>
      exact (signatures_prefix_insert map signature).trans (ih (map.insert signature))

/-- Inserting more signatures keeps the signatures of the map at the front. -/
theorem signatures_ofList_mono {first second : List MethodSignature} (hfront : first <+: second) :
    (ofList first).signatures <+: (ofList second).signatures := by
  obtain ⟨more, rfl⟩ := hfront
  rw [ofList, ofList, List.foldl_append]
  exact signatures_prefix_foldl more _

/-- A run of insertions adds, for each name that the map does not have yet, its first signature. -/
theorem signatures_foldl (signatures : List MethodSignature) (map : MethodMap) :
    (signatures.foldl insert map).signatures =
      map.signatures ++ firstOfEach MethodSignature.name
        (signatures.filter fun signature => signature.name ∉ map.names) := by
  induction signatures generalizing map with
  | nil => simp
  | cons signature signatures ih =>
      rw [List.foldl_cons, ih]
      by_cases hmem : signature.name ∈ map.names
      · rw [insert_of_mem hmem, List.filter_cons_of_neg (by simpa using hmem)]
      · have hnames : (map.insert signature).names = map.names ++ [signature.name] := by
          simp [names, signatures_insert_of_notMem hmem]
        rw [signatures_insert_of_notMem hmem, List.filter_cons_of_pos (by simpa using hmem),
          firstOfEach_cons, List.filter_filter, List.append_assoc, List.singleton_append, hnames]
        -- a later signature is kept when its name is not in the map and not the one just inserted
        congr 3
        apply List.filter_congr
        intro other _
        simp [and_comm]

/-- A map of a list of signatures holds the first signature of each name. -/
theorem signatures_ofList (signatures : List MethodSignature) :
    (ofList signatures).signatures = firstOfEach MethodSignature.name signatures := by
  rw [ofList, signatures_foldl]
  simp [empty, names]

end MethodMap

end ServiceScaffold
