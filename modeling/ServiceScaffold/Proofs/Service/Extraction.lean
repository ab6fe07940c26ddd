import ServiceScaffold.Proofs.Service.MethodMap
import ServiceScaffold.Proofs.Service.Occurrence

/-! # The methods of a source

The methods that are read out of a source are given by the places of its occurrences alone: the
choice from left to right, without the constructors, the first of each name.
-/

namespace ServiceScaffold

theorem extractMethods_signatures (source : Text) :
    (extractMethods source).signatures =
      (firstOfEach Occurrence.name ((Occurrence.all source).filter fun occurrence =>
        occurrence.name ≠ constructorName)).map Occurrence.signature := by
  rw [extractMethods, MethodMap.signatures_ofList, firstOfEach_map]
  rfl

/-- There is exactly one choice of occurrences from left to right, and the methods of the source
are its occurrences without the constructors, the first of each name, each with the names of its
parameter list. -/
theorem extractMethods_exact (source : Text) :
    ∃ chosen, Occurrence.Leftmost source chosen ∧
      (∀ other, Occurrence.Leftmost source other → other = chosen) ∧
      (extractMethods source).signatures =
        (firstOfEach Occurrence.name (chosen.filter fun occurrence =>
          occurrence.name ≠ constructorName)).map fun occurrence =>
            ⟨occurrence.name, Parameter.names occurrence.parameters⟩ := by
  have hchosen := Occurrence.leftmost_all source
  refine ⟨Occurrence.all source, hchosen, fun other hother => hother.unique hchosen, ?_⟩
  exact extractMethods_signatures source

/-- More text keeps the methods that were read. -/
theorem signatures_prefix_extractMethods (source more : Text) :
    (extractMethods source).signatures <+: (extractMethods (source ++ more)).signatures := by
  have hall := Occurrence.all_prefix_append source more
  exact MethodMap.signatures_ofList_mono ((hall.filter _).map Occurrence.signature)

theorem isName_of_mem_extractMethods {source : Text} {signature : MethodSignature}
    (hmem : signature ∈ (extractMethods source).signatures) : IsName signature.name := by
  rw [extractMethods_signatures] at hmem
  obtain ⟨occurrence, hoccurrence, rfl⟩ := List.mem_map.mp hmem
  have hall := mem_of_mem_firstOfEach hoccurrence
  exact Occurrence.isName_of_mem_all (List.mem_filter.mp hall).1

end ServiceScaffold
