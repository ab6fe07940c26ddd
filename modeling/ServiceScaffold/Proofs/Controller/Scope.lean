import ServiceScaffold.Proofs.Controller.ReadBack

/-! # The scope of a handler

The names that a handler binds against the names that it forwards to the service. The query and the
body are bound in every handler, and a parameter that is not reserved is declared. A reserved name is
forwarded as it is written but never declared, so that it is bound only where it is written exactly
as the query or the body.
-/

namespace ServiceScaffold

namespace Route

variable {route : Route} {name : Text}

/-- The parameters that a handler takes, as they are declared. -/
def parameters (route : Route) : List Text :=
  ("@Query() query: any" : Text) :: "@Body() body: any" :: route.declared.map (· ++ ": any")

/-- The names that the parameter list of the handler binds. -/
def bound (route : Route) : List Text :=
  Parameter.names (List.intercalate ", " route.parameters)

/-- A route is its handler with its parameter list, and in it the call to the service. -/
theorem render_eq (route : Route) : route.render =
    "\n  @Get('" ++ route.path ++ "')\n  async " ++ route.handler ++ "("
      ++ List.intercalate ", " route.parameters
      ++ ") \x7b\n    // TODO: Map parameters correctly\n    return this.service."
      ++ route.handler ++ "(" ++ route.argumentList ++ ");\n  \x7d\n" := by
  have hopening : ("(@Query() query: any, @Body() body: any" : Text) =
      "(" ++ ("@Query() query: any" ++ (", " ++ "@Body() body: any")) := rfl
  have hdeclaration : declaration = fun name => (", " : Text) ++ (name ++ ": any") :=
    funext fun name => List.append_assoc _ _ _
  have hparameters : List.intercalate ", " route.parameters = ("@Query() query: any" : Text) ++
      ((", " ++ "@Body() body: any") ++ route.declared.flatMap declaration) := by
    rw [hdeclaration, parameters, Text.intercalate_cons, List.flatMap_cons, List.flatMap_map]
  unfold render
  rw [hparameters, hopening]
  simp only [argumentList, List.append_assoc]

namespace IsPlain

/-- Every handler binds the query and the body, and besides them what it declares. -/
theorem bound_eq (hplain : route.IsPlain) : route.bound = ("query" : Text) :: "body" :: route.declared := by
  have hdeclared : ∀ name ∈ route.declared, Parameter.name (name ++ ": any") = name :=
    fun name hmem => Parameter.name_front (hplain.declared name hmem) (by decide)
  have hcomma : ∀ part ∈ route.parameters, ',' ∉ part :=
    List.forall_mem_cons.mpr ⟨by decide,
      Parameter.notMem_part (by decide) (by decide) (by decide) hplain.declared⟩
  have hblank : ∀ part ∈ route.parameters, Text.isBlankText part = false := by
    rw [parameters, List.forall_mem_cons, List.forall_mem_cons, List.forall_mem_map]
    refine ⟨by decide, by decide, fun name hmem => ?_⟩
    rw [Text.isBlankText_append, (hplain.declared name hmem).isBlankText, Bool.false_and]
  rw [bound, Parameter.names_joined hcomma hblank, parameters, List.map_cons, List.map_cons,
    List.map_map]
  exact congrArg₂ _ (by decide) <| congrArg₂ _ (by decide) <|
    (List.map_congr_left hdeclared).trans (List.map_id _)

end IsPlain

/-- A parameter is bound unless it has a reserved name, and then only as the query or the body. -/
theorem mem_bound_iff {signature : MethodSignature} (hplain : (ofSignature signature).IsPlain)
    (hname : name ∈ signature.parameters) :
    name ∈ (ofSignature signature).bound ↔
      (isReserved name = true → name = "query" ∨ name = "body") := by
  have hdeclared : name ∈ (ofSignature signature).declared ↔ isReserved name = false := by
    simp [ofSignature, MethodSignature.declared, hname]
  rw [hplain.bound_eq, List.mem_cons, List.mem_cons, hdeclared]
  cases isReserved name <;> simp

end Route

namespace Controller

/-- A handler stands in the text with the parameter list that it binds names by and the call that
forwards names. A name that it forwards is bound exactly when it is no reserved name, or when it is
one of the two that every handler binds. -/
theorem scope_ofSource (file : ServiceFile) (source : Text) {route : Route}
    (hroute : route ∈ (ofSource file source).routes) :
    (route.render = "\n  @Get('" ++ route.path ++ "')\n  async " ++ route.handler ++ "("
      ++ List.intercalate ", " route.parameters
      ++ ") \x7b\n    // TODO: Map parameters correctly\n    return this.service."
      ++ route.handler ++ "(" ++ route.argumentList ++ ");\n  \x7d\n") ∧
      Parameter.names route.argumentList = route.forwarded ∧
      route.bound = ("query" : Text) :: "body" :: route.declared ∧
      ∀ name ∈ route.forwarded,
        name ∈ route.bound ↔ (isReserved name = true → name = "query" ∨ name = "body") := by
  have hplain := isPlain_of_mem_routes hroute
  refine ⟨route.render_eq, hplain.names_argumentList, hplain.bound_eq, ?_⟩
  obtain ⟨signature, -, rfl⟩ := List.mem_map.mp hroute
  exact fun name hname => Route.mem_bound_iff hplain hname

/-- The source of a service with a parameter of each kind. -/
def reservedSource : Text := "public find(status: Array<string>, Body: any, query?: any, req: any) "

theorem scope_ofSource_reserved :
    ∃ route ∈ (ofSource ⟨"pet.service.ts", "pet.service"⟩ reservedSource).routes,
      Parameter.names route.argumentList = (["status", "Body", "query", "req"] : List Text) ∧
      route.bound = (["query", "body", "status"] : List Text) ∧
      ∀ name ∈ route.forwarded,
        name ∈ route.bound ↔ (isReserved name = true → name = "query" ∨ name = "body") := by
  have hroute : ⟨"find", "find", ["status"], ["status", "Body", "query", "req"]⟩ ∈
      (ofSource ⟨"pet.service.ts", "pet.service"⟩ reservedSource).routes := by decide
  obtain ⟨-, hforwarded, hbound, hscope⟩ := scope_ofSource _ _ hroute
  exact ⟨_, hroute, hforwarded, hbound, hscope⟩

/-- The request of a service method is forwarded, and no parameter of the handler has its name. -/
theorem exists_unbound_argument :
    ¬ ∀ (file : ServiceFile) (source : Text), ∀ route ∈ (ofSource file source).routes,
      ∀ name ∈ route.forwarded, name ∈ route.bound := by
  intro hscoped
  have hroute : ⟨"find", "find", [], ["req"]⟩ ∈
      (ofSource ⟨"pet.service.ts", "pet.service"⟩ "public find(req: any) \x7b\x7d").routes := by decide
  exact absurd (hscoped _ _ _ hroute "req" List.mem_cons_self) (by decide)

end Controller

end ServiceScaffold
