import ServiceScaffold.Controller.Basic
import ServiceScaffold.Proofs.Service.Extraction
import ServiceScaffold.Proofs.Service.Parameter

/-! # Reading a controller back

The text of a controller gives its routes back, whatever the source of the service was. A source
can put nothing but names between the fixed pieces of the text, and each of those pieces starts
with a character that cannot stand in what is before it.
-/

namespace ServiceScaffold

/-! ## Pieces -/

namespace Text

variable {inRun : Char → Bool} {run closing : Text}

/-- Reads a run of a class of characters and the fixed piece that closes it. -/
def runBefore? (inRun : Char → Bool) (closing text : Text) : Option (Text × Text) :=
  (closing.isPrefixOf? (text.dropWhile inRun)).map fun rest => (text.takeWhile inRun, rest)

theorem runBefore?_append (hrun : ∀ c ∈ run, inRun c = true)
    (hclosing : closing.head?.all inRun = false) (rest : Text) :
    runBefore? inRun closing (run ++ (closing ++ rest)) = some (run, rest) := by
  have hstop : ∀ c ∈ (closing ++ rest).head?, inRun c = false := by
    cases closing with
    | nil => simp at hclosing
    | cons first closing => simpa using hclosing
  rw [runBefore?, takeWhile_run hrun hstop, dropWhile_run hrun hstop, isPrefixOf?_append]
  rfl

/-- What is cut at a mark may hold none. -/
theorem runBefore?_append_of_notMem {mark : Char} (hrun : mark ∉ run)
    (hclosing : closing.head? = some mark) (rest : Text) :
    runBefore? (· ≠ mark) closing (run ++ (closing ++ rest)) = some (run, rest) := by
  refine runBefore?_append (fun c hc => ?_) ?_ rest
  · rw [decide_eq_true_eq]
    rintro rfl
    exact hrun hc
  · simp [hclosing]

end Text

/-! ## Lists of names -/

namespace Parameter

variable {first after : Text} {names : List Text}

/-- A part and names behind it, each after a comma and a blank and in front of the same text. -/
def listing (first after : Text) (names : List Text) : Text :=
  first ++ names.flatMap fun name => (", " : Text) ++ (name ++ after)

theorem listing_eq_intercalate (first after : Text) (names : List Text) :
    listing first after names = List.intercalate ", " (first :: names.map (· ++ after)) := by
  rw [Text.intercalate_cons, List.flatMap_map]
  rfl

/-- What stands in no name and in no fixed text of a listing stands in none of its parts. -/
theorem notMem_part {c : Char} (hc : isWordChar c = false) (hfirst : c ∉ first) (hafter : c ∉ after)
    (hnames : ∀ name ∈ names, IsName name) : ∀ part ∈ first :: names.map (· ++ after), c ∉ part := by
  rw [List.forall_mem_cons, List.forall_mem_map]
  refine ⟨hfirst, fun name hmem => ?_⟩
  simpa [hafter] using (hnames name hmem).notMem hc

/-- A listing is read as the name of its first part and the names behind it. -/
theorem names_listing (hfirst : ',' ∉ first ∧ Text.isBlankText first = false)
    (hafter : ',' ∉ after ∧ (Text.isBlankText after = true ∨ marked after = true))
    (hnames : ∀ name ∈ names, IsName name) :
    Parameter.names (listing first after names) = name first :: names := by
  have hname : ∀ name ∈ names, Parameter.name (name ++ after) = name := fun name hmem =>
    name_front (hnames name hmem) hafter.2
  have hblank : ∀ part ∈ first :: names.map (· ++ after), Text.isBlankText part = false := by
    rw [List.forall_mem_cons, List.forall_mem_map]
    refine ⟨hfirst.2, fun name hmem => ?_⟩
    rw [Text.isBlankText_append, (hnames name hmem).isBlankText, Bool.false_and]
  rw [listing_eq_intercalate, names_joined (notMem_part (by decide) hfirst.1 hafter.1 hnames) hblank,
    List.map_cons, List.map_map]
  exact congrArg _ ((List.map_congr_left hname).trans (List.map_id names))

theorem bracket_notMem_listing (hfirst : ')' ∉ first) (hafter : ')' ∉ after)
    (hnames : ∀ name ∈ names, IsName name) : ')' ∉ listing first after names := by
  rw [listing_eq_intercalate]
  exact Text.notMem_intercalate (by decide) (notMem_part (by decide) hfirst hafter hnames)

end Parameter

/-! ## Routes -/

namespace Route

variable {route : Route}

/-- All that a route pastes into a text are names. -/
structure IsPlain (route : Route) : Prop where
  path : IsName route.path
  handler : IsName route.handler
  declared : ∀ name ∈ route.declared, IsName name
  forwarded : ∀ name ∈ route.forwarded, IsName name

/-- The parameters of the handler from the body on. -/
def parameterList (route : Route) : Text :=
  Parameter.listing ("body: any" : Text) (": any" : Text) route.declared

/-- The arguments of the call to the service. -/
def argumentList (route : Route) : Text := List.intercalate ", " route.forwarded

/-- Reads a route and gives the text behind it. The first of the parameters that it reads is the
body, which every handler declares. -/
def read? (text : Text) : Option (Route × Text) := do
  let text ← ("\n  @Get('" : Text).isPrefixOf? text
  let (path, text) ← Text.runBefore? isWordChar "')\n  async " text
  let (handler, text) ← Text.runBefore? isWordChar "(@Query() query: any, @Body() " text
  let (parameters, text) ← Text.runBefore? (· ≠ ')')
    ") \x7b\n    // TODO: Map parameters correctly\n    return this.service." text
  let (_, text) ← Text.runBefore? isWordChar "(" text
  let (arguments, text) ← Text.runBefore? (· ≠ ')') ");\n  \x7d\n" text
  return (⟨path, handler, (Parameter.names parameters).tail, Parameter.names arguments⟩, text)

/-- The fixed pieces of a route and what stands between them. -/
theorem render_append (route : Route) (rest : Text) : route.render ++ rest =
    "\n  @Get('" ++ (route.path ++ ("')\n  async " ++ (route.handler ++
      ("(@Query() query: any, @Body() " ++ (route.parameterList ++
        (") \x7b\n    // TODO: Map parameters correctly\n    return this.service." ++
          (route.handler ++ ("(" ++ (route.argumentList ++ (");\n  \x7d\n" ++ rest)))))))))) := by
  have hbody : ("(@Query() query: any, @Body() body: any" : Text) =
      "(@Query() query: any, @Body() " ++ "body: any" := rfl
  unfold render declaration parameterList Parameter.listing argumentList
  rw [hbody]
  simp only [List.append_assoc]

namespace IsPlain

theorem names_parameterList (hplain : route.IsPlain) :
    Parameter.names route.parameterList = ("body" : Text) :: route.declared :=
  Parameter.names_listing (by decide) (by decide) hplain.declared

theorem bracket_notMem_parameterList (hplain : route.IsPlain) : ')' ∉ route.parameterList :=
  Parameter.bracket_notMem_listing (by decide) (by decide) hplain.declared

theorem names_argumentList (hplain : route.IsPlain) :
    Parameter.names route.argumentList = route.forwarded :=
  Parameter.names_joined_names hplain.forwarded

theorem bracket_notMem_argumentList (hplain : route.IsPlain) : ')' ∉ route.argumentList :=
  Text.notMem_intercalate (by decide) fun name hmem =>
    (hplain.forwarded name hmem).notMem (by decide)

end IsPlain

/-- A route is read off the front of any text that starts with it. -/
theorem read?_render_append (hplain : route.IsPlain) (rest : Text) :
    read? (route.render ++ rest) = some (route, rest) := by
  unfold read?
  simp only [Option.bind_eq_bind]
  rw [render_append, Text.isPrefixOf?_append, Option.bind_some,
    Text.runBefore?_append hplain.path.word (by decide), Option.bind_some,
    Text.runBefore?_append hplain.handler.word (by decide), Option.bind_some,
    Text.runBefore?_append_of_notMem hplain.bracket_notMem_parameterList rfl,
    Option.bind_some, Text.runBefore?_append hplain.handler.word (by decide), Option.bind_some,
    Text.runBefore?_append_of_notMem hplain.bracket_notMem_argumentList rfl,
    Option.bind_some]
  rw [hplain.names_parameterList, hplain.names_argumentList]
  rfl

/-- Reads routes until the text goes on with something else. Each round of the fuel passes one
route, so the length of the text is enough. -/
def readAll : Nat → Text → List Route
  | 0, _ => []
  | fuel + 1, text =>
    match read? text with
    | some (route, rest) => route :: readAll fuel rest
    | none => []

theorem length_le_flatMap_render (routes : List Route) :
    routes.length ≤ (routes.flatMap render).length := by
  induction routes with
  | nil => exact Nat.zero_le _
  | cons route routes ih =>
      have hrender : 0 < route.render.length := by
        rw [← List.append_nil route.render, render_append]
        exact Nat.zero_lt_succ _
      rw [List.length_cons, List.flatMap_cons, List.length_append]
      omega

theorem readAll_flatMap_render {routes : List Route} {rest : Text} {fuel : Nat}
    (hplain : ∀ route ∈ routes, route.IsPlain) (hrest : read? rest = none)
    (hfuel : routes.length ≤ fuel) : readAll fuel (routes.flatMap render ++ rest) = routes := by
  induction routes generalizing fuel with
  | nil =>
      -- with fuel left, the list ends because no route can be read here
      cases fuel with
      | zero => rfl
      | succ fuel => rw [List.flatMap_nil, List.nil_append, readAll, hrest]
  | cons route routes ih =>
      obtain ⟨hroute, hroutes⟩ := List.forall_mem_cons.mp hplain
      cases fuel with
      | zero => simp at hfuel
      | succ fuel =>
          rw [List.flatMap_cons, List.append_assoc, readAll, read?_render_append hroute]
          simp only [ih hroutes (Nat.le_of_succ_le_succ hfuel)]

end Route

/-! ## Controllers -/

namespace Controller

/-- What stands before the routes of a service file's controller. -/
def heading (file : ServiceFile) : Text :=
  "import \x7b Controller, Get, Post, Body, Query \x7d from '@nestjs/common';\nimport \x7b "
    ++ file.serviceType ++ " \x7d from '../services/" ++ file.baseName
    ++ ".service';\n\n@Controller('" ++ file.baseName ++ "')\nexport class "
    ++ file.controllerType ++ " \x7b\n  constructor(private readonly service: "
    ++ file.serviceType ++ ") \x7b\x7d\n"

/-- Reads the routes off the text of a service file's controller. -/
def readRoutes (file : ServiceFile) (text : Text) : Option (List Route) :=
  ((heading file).isPrefixOf? text).map fun body => Route.readAll body.length body

theorem render_ofSource (file : ServiceFile) (source : Text) :
    (ofSource file source).render =
      heading file ++ ((ofSource file source).routes.flatMap Route.render ++ "\n\x7d\n") :=
  List.append_assoc _ _ _

/-- Whatever the source is, its routes paste nothing but names. -/
theorem isPlain_of_mem_routes {file : ServiceFile} {source : Text} {route : Route}
    (hroute : route ∈ (ofSource file source).routes) : route.IsPlain := by
  obtain ⟨signature, hsignature, rfl⟩ := List.mem_map.mp hroute
  have hname := isName_of_mem_extractMethods hsignature
  have hparameters : ∀ name ∈ signature.parameters, IsName name := by
    rw [extractMethods_signatures] at hsignature
    obtain ⟨occurrence, -, rfl⟩ := List.mem_map.mp hsignature
    exact fun name hmem => Parameter.isName_of_mem_names hmem
  refine ⟨hname, hname, ?_, hparameters⟩
  exact fun name hmem => hparameters name (List.mem_filter.mp hmem).1

theorem readRoutes_render (file : ServiceFile) (source : Text) :
    readRoutes file (ofSource file source).render = some (ofSource file source).routes := by
  have hend : Route.read? "\n\x7d\n" = none := by decide
  rw [readRoutes, render_ofSource, Text.isPrefixOf?_append, Option.map_some,
    Route.readAll_flatMap_render (fun _ => isPlain_of_mem_routes) hend]
  rw [List.length_append]
  exact Nat.le_add_right_of_le (Route.length_le_flatMap_render _)

/-- The text of a controller loses nothing: its routes are made of names, they can be read off the
text again, and two sources give one text exactly when they give one list of routes. -/
theorem render_ofSource_lossless (file : ServiceFile) :
    (∀ source, ∀ route ∈ (ofSource file source).routes, route.IsPlain) ∧
      (∀ source, readRoutes file (ofSource file source).render =
        some (ofSource file source).routes) ∧
      ∀ source other, (ofSource file source).render = (ofSource file other).render ↔
        (ofSource file source).routes = (ofSource file other).routes := by
  refine ⟨fun _ _ => isPlain_of_mem_routes, readRoutes_render file, fun source other => ?_⟩
  constructor
  · intro hrender
    have hread := readRoutes_render file source
    rw [hrender, readRoutes_render] at hread
    exact (Option.some.inj hread).symm
  · intro hroutes
    rw [render_ofSource, render_ofSource, hroutes]

end Controller

end ServiceScaffold
