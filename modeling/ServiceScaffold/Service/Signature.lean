import ServiceScaffold.Text.Basic

/-!
# Method signatures

What is kept of a service's public method: its name and the names of its parameters. Some parameter
names are reserved, because a route handler already has a value of that name; they are forwarded to
the service but not declared again.

A method map holds signatures by their method's name in the order of their first insertion; a later
signature of the same name is turned away. Beside the signatures it keeps the set of their names, and
every insertion keeps the two in step.
-/

namespace ServiceScaffold

/-- The parameter names that a route handler does not declare again. -/
def reservedParameters : List Text :=
  ["body", "query", "params", "param", "request", "req", "res", "next"]

/-- Is the name reserved? Upper and lower case of ASCII letters count as the same. -/
def isReserved (name : Text) : Bool :=
  reservedParameters.contains (Text.lowerAscii name)

/-- A public method: its name and the names of its parameters. -/
structure MethodSignature where
  name : Text
  parameters : List Text
  deriving DecidableEq, Repr

namespace MethodSignature

/-- The parameters that a handler declares: those without a reserved name. -/
def declared (signature : MethodSignature) : List Text :=
  signature.parameters.filter fun name => !isReserved name

/-- The arguments of the call to the service: all parameters. -/
def forwarded (signature : MethodSignature) : List Text := signature.parameters

end MethodSignature

/-- A list of signatures and a set of names that are in step: no two signatures have one name, and the
names of the signatures are what the set holds. -/
structure InStep (signatures : List MethodSignature) (seen : List Text) : Prop where
  nodup : (signatures.map MethodSignature.name).Nodup
  mem_seen_iff : ∀ name, name ∈ seen ↔ name ∈ signatures.map MethodSignature.name

namespace InStep

theorem nil : InStep [] [] := ⟨List.nodup_nil, fun _ => Iff.rfl⟩

/-- A signature of a new name is added to both. -/
theorem concat {signatures : List MethodSignature} {seen : List Text} {signature : MethodSignature}
    (hinStep : InStep signatures seen) (hnew : signature.name ∉ seen) :
    InStep (signatures ++ [signature]) (signature.name :: seen) where
  nodup := by
    rw [List.map_append, List.nodup_append]
    refine ⟨hinStep.nodup, by simp, ?_⟩
    intro name hname other hother heq
    rw [List.map_singleton, List.mem_singleton] at hother
    exact hnew ((hinStep.mem_seen_iff _).mpr (hother ▸ heq ▸ hname))
  mem_seen_iff := by
    intro name
    rw [List.mem_cons, hinStep.mem_seen_iff, List.map_append, List.mem_append, List.map_singleton,
      List.mem_singleton, or_comm]

end InStep

/-- Signatures in the order of their first insertion, one for each method name. The names are kept a
second time, as a set to look them up in; the order of that set carries no meaning. -/
structure MethodMap where
  signatures : List MethodSignature
  seen : List Text
  inStep : InStep signatures seen

namespace MethodMap

/-- The map without a method. -/
def empty : MethodMap := ⟨[], [], .nil⟩

/-- The names in the order of their first insertion. -/
def names (map : MethodMap) : List Text := map.signatures.map MethodSignature.name

/-- Is there a signature of that name? -/
def contains (map : MethodMap) (name : Text) : Bool := map.seen.contains name

/-- The signature of that name. -/
def get? (map : MethodMap) (name : Text) : Option MethodSignature :=
  map.signatures.find? fun signature => signature.name = name

/-- How many methods there are. -/
def size (map : MethodMap) : Nat := map.signatures.length

/-- Is there no method? -/
def isEmpty (map : MethodMap) : Bool := map.signatures.isEmpty

/-- Adds a signature at the end unless its name is taken, and says whether it was added. -/
def insertIfAbsent (map : MethodMap) (signature : MethodSignature) : Bool × MethodMap :=
  if hseen : signature.name ∈ map.seen then (false, map)
  else
    (true,
      { signatures := map.signatures ++ [signature]
        seen := signature.name :: map.seen
        inStep := map.inStep.concat hseen })

/-- The map after a signature was added, unless its name was taken. -/
def insert (map : MethodMap) (signature : MethodSignature) : MethodMap :=
  (map.insertIfAbsent signature).2

/-- The map of a list of signatures, inserted one by one. -/
def ofList (signatures : List MethodSignature) : MethodMap :=
  signatures.foldl insert empty

end MethodMap

end ServiceScaffold
