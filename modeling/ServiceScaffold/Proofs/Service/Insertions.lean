import Mathlib.Data.Finset.Card
import Mathlib.Data.List.Induction
import ServiceScaffold.Proofs.Service.MethodMap

/-! # Histories of insertions

A map keeps its names twice: in the order of its signatures, and in the set that they are looked up in.
Every insertion keeps the two in step, so whatever is asked of a map is answered by the list of
insertions that led to it.
-/

namespace ServiceScaffold.MethodMap

variable {map : MethodMap} {inserted : List MethodSignature} {answers : List Bool}
variable {signature : MethodSignature} {name : Text}

/-! ## Questions to one map -/

theorem nodup_names (map : MethodMap) : map.names.Nodup := map.inStep.nodup

theorem size_eq_length_names (map : MethodMap) : map.size = map.names.length :=
  (List.length_map _).symm

theorem contains_iff_mem_names : map.contains name = true ↔ name ∈ map.names := by
  rw [contains, List.contains_iff_mem, mem_seen_iff]

theorem isSome_get?_iff : (map.get? name).isSome = true ↔ name ∈ map.names := by
  simp [get?, names]

theorem get?_insertIfAbsent_of_notMem (hnew : signature.name ∉ map.names) :
    (map.insertIfAbsent signature).2.get? name =
      (map.get? name).or (if signature.name = name then some signature else none) := by
  rw [get?, (insertIfAbsent_of_notMem hnew).2, List.find?_append, get?]
  by_cases hname : signature.name = name <;> simp [hname]

theorem names_insertIfAbsent_of_notMem (hnew : signature.name ∉ map.names) :
    (map.insertIfAbsent signature).2.names = map.names ++ [signature.name] := by
  rw [names, (insertIfAbsent_of_notMem hnew).2, List.map_append]
  rfl

/-! ## Insertions one after another -/

/-- Inserts signatures one after another, and gives the answers to them beside the last map. -/
def insertAll (map : MethodMap) : List MethodSignature → List Bool × MethodMap
  | [] => ([], map)
  | signature :: rest =>
    let (answer, next) := map.insertIfAbsent signature
    let (answers, last) := next.insertAll rest
    (answer :: answers, last)

theorem insertAll_concat (map : MethodMap) (inserted : List MethodSignature)
    (signature : MethodSignature) :
    map.insertAll (inserted ++ [signature]) =
      ((map.insertAll inserted).1 ++ [((map.insertAll inserted).2.insertIfAbsent signature).1],
        ((map.insertAll inserted).2.insertIfAbsent signature).2) := by
  induction inserted generalizing map with
  | nil => rfl
  | cons first inserted ih => simp only [List.cons_append, insertAll, ih]

/-- The map and the answers come from these insertions into a new map. -/
structure ComesFrom (inserted : List MethodSignature) (answers : List Bool) (map : MethodMap) :
    Prop where
  mem_names_iff : ∀ name, name ∈ map.names ↔ name ∈ inserted.map MethodSignature.name
  ordered : map.names.Pairwise fun first second =>
    (inserted.map MethodSignature.name).idxOf first < (inserted.map MethodSignature.name).idxOf second
  get?_eq : ∀ name, map.get? name = inserted.find? fun signature => signature.name = name
  answers_eq : answers = inserted.mapIdx fun index signature =>
    decide (signature.name ∉ (inserted.take index).map MethodSignature.name)

namespace ComesFrom

theorem nil : ComesFrom [] [] empty where
  mem_names_iff := fun _ => Iff.rfl
  ordered := .nil
  get?_eq := fun _ => rfl
  answers_eq := rfl

/-- The answers to the insertions before the last one do not depend on it. -/
theorem answers_concat (hfrom : ComesFrom inserted answers map) (signature : MethodSignature) :
    answers ++ [decide (signature.name ∉ map.names)] =
      (inserted ++ [signature]).mapIdx fun index other =>
        decide (other.name ∉ ((inserted ++ [signature]).take index).map MethodSignature.name) := by
  have hlast : decide (signature.name ∉ map.names) =
      decide (signature.name ∉ inserted.map MethodSignature.name) :=
    decide_eq_decide.mpr (hfrom.mem_names_iff _).not
  rw [List.mapIdx_concat, List.take_left, hfrom.answers_eq, hlast]
  congr 1
  refine List.mapIdx_eq_mapIdx_iff.mpr fun index hindex => ?_
  rw [List.take_append_of_le_length hindex.le]

/-- One more insertion does not move what was inserted before. -/
theorem ordered_concat (hfrom : ComesFrom inserted answers map) (signature : MethodSignature) :
    map.names.Pairwise fun first second =>
      ((inserted ++ [signature]).map MethodSignature.name).idxOf first <
        ((inserted ++ [signature]).map MethodSignature.name).idxOf second := by
  refine hfrom.ordered.imp_of_mem fun {first second} hfirst hsecond hbefore => ?_
  rw [List.map_append, List.idxOf_append_of_mem ((hfrom.mem_names_iff _).mp hfirst),
    List.idxOf_append_of_mem ((hfrom.mem_names_iff _).mp hsecond)]
  exact hbefore

/-- A name that was inserted before is turned away. -/
theorem concat_of_mem (hfrom : ComesFrom inserted answers map) (hmem : signature.name ∈ map.names) :
    ComesFrom (inserted ++ [signature]) (answers ++ [false]) map where
  mem_names_iff := by
    intro name
    rw [hfrom.mem_names_iff, List.map_append, List.mem_append, List.map_singleton, List.mem_singleton]
    refine ⟨Or.inl, fun hname => hname.elim id ?_⟩
    rintro rfl
    exact (hfrom.mem_names_iff _).mp hmem
  ordered := hfrom.ordered_concat signature
  get?_eq := by
    intro name
    rw [List.find?_append, ← hfrom.get?_eq]
    by_cases hname : signature.name = name
    · obtain ⟨found, hfound⟩ := Option.isSome_iff_exists.mp (isSome_get?_iff.mpr (hname ▸ hmem))
      rw [hfound, Option.some_or]
    · simp [hname]
  answers_eq := by
    rw [← hfrom.answers_concat, decide_eq_false (not_not.mpr hmem)]

/-- A new name is added behind those that were inserted before. -/
theorem concat_of_notMem (hfrom : ComesFrom inserted answers map)
    (hnew : signature.name ∉ map.names) :
    ComesFrom (inserted ++ [signature]) (answers ++ [true]) (map.insertIfAbsent signature).2 where
  mem_names_iff := by
    intro name
    rw [names_insertIfAbsent_of_notMem hnew, List.mem_append, hfrom.mem_names_iff, List.map_append,
      List.mem_append, List.map_singleton]
  ordered := by
    rw [names_insertIfAbsent_of_notMem hnew, List.pairwise_append]
    refine ⟨hfrom.ordered_concat signature, List.pairwise_singleton _ _, ?_⟩
    intro first hfirst last hlast
    -- the new name stands behind everything that was inserted
    have hearlier := (hfrom.mem_names_iff _).mp hfirst
    rw [List.mem_singleton.mp hlast, List.map_append, List.idxOf_append_of_mem hearlier,
      List.idxOf_append_of_notMem ((hfrom.mem_names_iff _).not.mp hnew)]
    exact Nat.lt_add_right _ (List.idxOf_lt_length_of_mem hearlier)
  get?_eq := by
    intro name
    rw [get?_insertIfAbsent_of_notMem hnew, List.find?_append, ← hfrom.get?_eq]
    by_cases hname : signature.name = name <;> simp [hname]
  answers_eq := by
    rw [← hfrom.answers_concat, decide_eq_true hnew]

theorem insertIfAbsent (hfrom : ComesFrom inserted answers map) (signature : MethodSignature) :
    ComesFrom (inserted ++ [signature]) (answers ++ [(map.insertIfAbsent signature).1])
      (map.insertIfAbsent signature).2 := by
  by_cases hmem : signature.name ∈ map.names
  · rw [insertIfAbsent_of_mem hmem]
    exact hfrom.concat_of_mem hmem
  · rw [(insertIfAbsent_of_notMem hmem).1]
    exact hfrom.concat_of_notMem hmem

theorem size_eq (hfrom : ComesFrom inserted answers map) :
    map.size = (inserted.map MethodSignature.name).toFinset.card := by
  have hnames : map.names.toFinset = (inserted.map MethodSignature.name).toFinset := by
    ext name
    rw [List.mem_toFinset, List.mem_toFinset, hfrom.mem_names_iff]
  rw [← hnames, List.toFinset_card_of_nodup map.nodup_names, size_eq_length_names]

end ComesFrom

theorem comesFrom_insertAll (inserted : List MethodSignature) :
    ComesFrom inserted (empty.insertAll inserted).1 (empty.insertAll inserted).2 := by
  induction inserted using List.reverseRecOn with
  | nil => exact .nil
  | append_singleton inserted signature ih =>
      rw [insertAll_concat]
      exact ih.insertIfAbsent signature

/-- What can be asked of a map, and how the insertions that led to it answer: the names without
repetition in the order of their first insertion, the first signature of each, and their number. An
insertion was accepted exactly if its name was new, and one that is turned away changes nothing. -/
structure Answers (inserted : List MethodSignature) (answers : List Bool) (map : MethodMap) : Prop
    extends ComesFrom inserted answers map where
  nodup : map.names.Nodup
  contains_eq : ∀ name, map.contains name = (map.get? name).isSome
  contains_iff : ∀ name, map.contains name = true ↔ name ∈ map.names
  size_eq : map.size = (inserted.map MethodSignature.name).toFinset.card
  isEmpty_iff : map.isEmpty = true ↔ map.size = 0
  refused : ∀ signature, (map.insertIfAbsent signature).1 = false →
    (map.insertIfAbsent signature).2 = map

/-- Whatever is inserted into a new map, the map answers every question from its history. -/
theorem answers_insertAll (inserted : List MethodSignature) :
    Answers inserted (empty.insertAll inserted).1 (empty.insertAll inserted).2 := by
  have hfrom := comesFrom_insertAll inserted
  refine ⟨hfrom, nodup_names _, fun name => ?_,
    fun name => contains_iff_mem_names, hfrom.size_eq, ?_, fun signature hrefused => ?_⟩
  · rw [Bool.eq_iff_iff, contains_iff_mem_names, isSome_get?_iff]
  · rw [isEmpty, size, List.isEmpty_iff, List.length_eq_zero_iff]
  · by_cases hmem : signature.name ∈ (empty.insertAll inserted).2.names
    · rw [insertIfAbsent_of_mem hmem]
    · rw [(insertIfAbsent_of_notMem hmem).1] at hrefused
      cases hrefused

/-- The second signature of a name is turned away, with its parameters. -/
example : (empty.insertAll [⟨"find", ["id"]⟩, ⟨"list", []⟩, ⟨"find", ["page"]⟩]).1 =
      [true, true, false] ∧
    (empty.insertAll [⟨"find", ["id"]⟩, ⟨"list", []⟩, ⟨"find", ["page"]⟩]).2.get? "find" =
      some ⟨"find", ["id"]⟩ := by
  decide

end ServiceScaffold.MethodMap
