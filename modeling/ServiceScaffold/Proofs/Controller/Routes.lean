import ServiceScaffold.Controller.Basic
import ServiceScaffold.Proofs.Service.Declaration

/-! # Routes and their source

The routes of a controller follow the declarations of its source. They can be read off a source that
was written out of declarations, and text that is added to a source only adds routes behind the
ones that are there.
-/

namespace ServiceScaffold.Controller

/-- A written service gets one route for each of its method names but the constructor's, in the order
of their first declarations. The route forwards the parameters of that declaration and declares
those that no handler has already. -/
theorem routes_ofSource_text (file : ServiceFile) (service : WrittenService) :
    (ofSource file service.text).routes =
      (firstOfEach Declaration.name (service.declarations.filter fun declaration =>
        declaration.name ≠ constructorName)).map fun declaration =>
          { path := declaration.name
            handler := declaration.name
            declared := (declaration.parameters.map WrittenParameter.name).filter fun name =>
              Text.lowerAscii name ∉ reservedParameters
            forwarded := declaration.parameters.map WrittenParameter.name } := by
  have hreserved (name : Text) :
      (!isReserved name) = decide (Text.lowerAscii name ∉ reservedParameters) := by
    simp [isReserved]
  rw [ofSource, ofMethods, service.extractMethods_text, List.map_map]
  apply List.map_congr_left
  intro declaration _
  simp only [Function.comp_apply, Route.ofSignature, MethodSignature.declared,
    MethodSignature.forwarded, hreserved]

example : (extractMethods
    "publi public find (readonly id: string, Query?, ...rest) public find() ").signatures.map
      Route.ofSignature = [⟨"find", "find", ["id", "rest"], ["id", "Query", "rest"]⟩] := by decide

/-- Text behind a source disturbs nothing that was read out of it: neither the methods with their
parameters nor the routes. -/
theorem ofSource_append (source more : Text) :
    (extractMethods source).signatures <+: (extractMethods (source ++ more)).signatures ∧
      ∀ file, (ofSource file source).routes <+: (ofSource file (source ++ more)).routes := by
  have hsignatures := signatures_prefix_extractMethods source more
  exact ⟨hsignatures, fun _ => hsignatures.map Route.ofSignature⟩

end ServiceScaffold.Controller
