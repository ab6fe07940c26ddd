import ServiceScaffold.CommandLine.Execute
import ServiceScaffold.Proofs.Controller.Directory
import ServiceScaffold.Proofs.Controller.ReadBack
import ServiceScaffold.Proofs.Path.Lineage
import ServiceScaffold.Proofs.Project.Wiring

/-! # Inspected services

What is shown of a service is its controller in other words: a headline, and a line for each route. The
routes can be read off these lines again, whatever the source of the service was.
-/

namespace ServiceScaffold

namespace Text

/-- Behind the last line there is nothing more. -/
theorem splitOn_ofLines {lines : List Text} (hlines : ∀ line ∈ lines, '\n' ∉ line) :
    (ofLines lines).splitOn '\n' = lines ++ [[]] := by
  induction lines with
  | nil => rfl
  | cons line lines ih =>
      obtain ⟨hline, hlines⟩ := List.forall_mem_cons.mp hlines
      have hcons : ofLines (line :: lines) = line ++ '\n' :: ofLines lines := by
        simp [ofLines]
      calc (ofLines (line :: lines)).splitOn '\n'
        _ = line.splitOn '\n' ++ (ofLines lines).splitOn '\n' := by
          rw [hcons]
          exact List.splitOnP_append_cons line _ (by decide)
        _ = line :: lines ++ [[]] := by
          rw [List.splitOn_eq_singleton hline, ih hlines]
          rfl

end Text

/-! ## Lines of routes -/

namespace Route

variable {route : Route}

/-- The names that the handler declares besides the usual two. -/
def declaredList (route : Route) : Text := List.intercalate ", " route.declared

/-- A route in one line: its handler with what that declares, and the call with what is forwarded. -/
def line (route : Route) : Text :=
  "  " ++ route.handler ++ "(" ++ route.declaredList ++ ") -> service." ++ route.handler ++ "("
    ++ route.argumentList ++ ")"

/-- Reads a route off its line; the handler is its path, too. -/
def ofLine? (text : Text) : Option Route := do
  let text ← ("  " : Text).isPrefixOf? text
  let (handler, text) ← Text.runBefore? isWordChar "(" text
  let (declared, text) ← Text.runBefore? (· ≠ ')') ") -> service." text
  let (_, text) ← Text.runBefore? isWordChar "(" text
  let (arguments, _) ← Text.runBefore? (· ≠ ')') ")" text
  return ⟨handler, handler, Parameter.names declared, Parameter.names arguments⟩

/-- The fixed pieces of a line and what stands between them. -/
theorem line_append (route : Route) (rest : Text) : route.line ++ rest =
    "  " ++ (route.handler ++ ("(" ++ (route.declaredList ++ (") -> service." ++
      (route.handler ++ ("(" ++ (route.argumentList ++ (")" ++ rest)))))))) := by
  unfold line
  simp only [List.append_assoc]

namespace IsPlain

theorem names_declaredList (hplain : route.IsPlain) :
    Parameter.names route.declaredList = route.declared :=
  Parameter.names_joined_names hplain.declared

theorem notMem_declaredList (hplain : route.IsPlain) {c : Char} (hc : isWordChar c = false)
    (hsep : c ∉ (", " : Text)) : c ∉ route.declaredList :=
  Text.notMem_intercalate hsep fun name hmem => (hplain.declared name hmem).notMem hc

end IsPlain

theorem ofLine?_line (hplain : route.IsPlain) (hpath : route.path = route.handler) :
    ofLine? route.line = some route := by
  unfold ofLine?
  simp only [Option.bind_eq_bind]
  rw [← List.append_nil route.line, line_append, Text.isPrefixOf?_append, Option.bind_some,
    Text.runBefore?_append hplain.handler.word (by decide), Option.bind_some,
    Text.runBefore?_append_of_notMem (hplain.notMem_declaredList (by decide) (by decide)) rfl,
    Option.bind_some, Text.runBefore?_append hplain.handler.word (by decide), Option.bind_some,
    Text.runBefore?_append_of_notMem hplain.bracket_notMem_argumentList rfl, Option.bind_some,
    hplain.names_declaredList, hplain.names_argumentList]
  exact congrArg (fun path => some (Route.mk path route.handler route.declared route.forwarded)) hpath.symm

theorem newline_notMem_line (hplain : route.IsPlain) : '\n' ∉ route.line := by
  have hhandler : '\n' ∉ route.handler := hplain.handler.notMem (by decide)
  have hdeclared := hplain.notMem_declaredList (c := '\n') (by decide) (by decide)
  have hforwarded : '\n' ∉ route.argumentList :=
    Text.notMem_intercalate (by decide) fun name hmem => (hplain.forwarded name hmem).notMem (by decide)
  unfold line
  simp only [List.mem_append, hhandler, hdeclared, hforwarded, or_false]
  decide

end Route

/-! ## Controllers in lines -/

namespace Controller

/-- The first line of a controller: the service's class, its own class and the name of its file. -/
def headline (controller : Controller) : Text :=
  controller.serviceType ++ " -> " ++ controller.className ++ " (" ++ controller.fileName ++ ")"

/-- The line that stands for no routes. -/
def noRoutes : Text := "  (no public methods)"

/-- The lines of a controller behind the first one. -/
def routeLines (controller : Controller) : List Text :=
  if controller.routes = [] then [noRoutes] else controller.routes.map Route.line

/-- A controller in lines. -/
def overview (controller : Controller) : List Text := controller.headline :: controller.routeLines

/-- Reads the routes off the lines of a service file's controller. -/
def readOverview (file : ServiceFile) (text : Text) : Option (List Route) :=
  (((ofMethods file .empty).headline ++ "\n").isPrefixOf? text).map fun body =>
    (body.splitOn '\n').filterMap Route.ofLine?

variable {file : ServiceFile} {source : Text} {controller : Controller} {route : Route}

theorem path_of_mem_routes (hroute : route ∈ (ofSource file source).routes) :
    route.path = route.handler := by
  obtain ⟨signature, -, rfl⟩ := List.mem_map.mp hroute
  rfl

/-- No route has the line that stands for none: that one points at no service. -/
theorem noRoutes_mem_routeLines_iff : noRoutes ∈ controller.routeLines ↔ controller.routes = [] := by
  unfold routeLines
  split
  next hnone => simp [hnone]
  next hsome =>
    refine iff_of_false (fun hmem => ?_) hsome
    obtain ⟨route, -, hline⟩ := List.mem_map.mp hmem
    have harrow : '>' ∈ (") -> service." : Text) := by decide
    have hmem : '>' ∈ route.line := by
      unfold Route.line
      simp only [List.mem_append, harrow, or_true, true_or]
    rw [hline] at hmem
    revert hmem
    decide

theorem newline_notMem_of_mem_routeLines {line : Text} (hline : line ∈ (ofSource file source).routeLines) :
    '\n' ∉ line := by
  unfold routeLines at hline
  split at hline
  · rw [List.mem_singleton.mp hline]
    decide
  · obtain ⟨route, hroute, rfl⟩ := List.mem_map.mp hline
    exact Route.newline_notMem_line (isPlain_of_mem_routes hroute)

theorem filterMap_routeLines (file : ServiceFile) (source : Text) :
    (ofSource file source).routeLines.filterMap Route.ofLine? = (ofSource file source).routes := by
  unfold routeLines
  split
  next hnone =>
    rw [hnone]
    decide
  next =>
    have hread : ∀ route ∈ (ofSource file source).routes, Route.ofLine? route.line = some route :=
      fun route hroute => Route.ofLine?_line (isPlain_of_mem_routes hroute) (path_of_mem_routes hroute)
    rw [List.filterMap_map]
    exact (List.filterMap_congr hread).trans List.filterMap_some

theorem readOverview_overview (file : ServiceFile) (source : Text) :
    readOverview file (Text.ofLines (ofSource file source).overview) =
      some (ofSource file source).routes := by
  have hfront : Text.ofLines (ofSource file source).overview =
      (ofMethods file .empty).headline ++ "\n" ++ Text.ofLines (ofSource file source).routeLines :=
    List.flatMap_cons
  have hend : Route.ofLine? [] = none := by decide
  rw [readOverview, hfront, Text.isPrefixOf?_append, Option.map_some,
    Text.splitOn_ofLines fun line => newline_notMem_of_mem_routeLines, List.filterMap_append,
    filterMap_routeLines, List.filterMap_cons_none hend, List.filterMap_nil, List.append_nil]

/-! ## Batches of one name -/

variable {serviceDir controllerDir name : Path} {world : World}

/-- Once its service can be read, nothing but writing the controller can fail. -/
theorem generateBatch_singleton (hparsed : ServiceFile.ofPath? name = some file)
    (hread : world.tree.read (file.sourcePath serviceDir) = .ok source) :
    match generateBatch serviceDir controllerDir [name] world with
    | .ok targets after =>
      targets = [file.controllerPath controllerDir] ∧
        Generates serviceDir controllerDir world.tree after.tree name file source
    | .error failure _ =>
      ∃ fault, failure = .writeController (file.controllerPath controllerDir) fault := by
  rcases generate_cases serviceDir controllerDir name world with
    ⟨hnone, -⟩ | ⟨other, fault, hother, hfault, -⟩ | ⟨other, text, fault, after, hother, -, hfail, -⟩ |
      ⟨other, text, next, hstep⟩
  · cases hnone.symm.trans hparsed
  · obtain rfl := Option.some.inj (hother.symm.trans hparsed)
    cases hfault.symm.trans hread
  · obtain rfl := Option.some.inj (hother.symm.trans hparsed)
    rw [generateBatch_of_error (Run.bind_of_error hfail _)]
    exact ⟨fault, rfl⟩
  · obtain rfl := Option.some.inj (hstep.parsed.symm.trans hparsed)
    obtain rfl := Except.ok.inj (hstep.read.symm.trans hread)
    rw [generateBatch_of_ok (Run.bind_of_ok hstep.generate_eq _)]
    exact ⟨rfl, hstep⟩

theorem generateBatch_singleton_of_none (hparsed : ServiceFile.ofPath? name = none) :
    generateBatch serviceDir controllerDir [name] world = .error (.unsupportedName name) world :=
  generateBatch_of_error (Run.bind_of_error (generate_unsupported_iff.mpr ⟨hparsed, rfl, rfl⟩) _)

end Controller

/-! ## The command -/

namespace CommandLine

open Controller

variable {host : Host} {world : World} {path last : Path} {file : ServiceFile} {source : Text}

/-- What is shown of a service with these methods. -/
def shown (file : ServiceFile) (methods : MethodMap) : List Output :=
  .notice (.serviceInspected file) :: ((if methods.isEmpty then [.notice .noPublicMethods] else [])
    ++ methods.signatures.map (.notice ∘ .methodInspected))

theorem tellMethods_apply (signatures : List MethodSignature) (world : World) :
    tellMethods signatures world =
      .ok () { world with printed := world.printed ++ signatures.map (.notice ∘ .methodInspected) } := by
  induction signatures generalizing world with
  | nil =>
      rw [List.map_nil, List.append_nil]
      rfl
  | cons signature signatures ih =>
      change tellMethods signatures { world with printed := world.printed ++ [_] } = _
      rw [ih, List.map_cons]
      simp only [List.append_assoc, List.singleton_append]
      rfl

theorem executeInspect_of_read (hlast : Path.fileName? path = some last)
    (hfile : ServiceFile.ofPath? last = some file) (hread : world.tree.read path = .ok source) :
    executeInspect path world = .ok () ⟨world.tree,
      world.printed ++ shown file (extractMethods source),
      world.logged ++ (extractMethods source).signatures.map .methodExtracted⟩ := by
  have hlook : Run.look (.read path) (fun tree => tree.read path) world = .ok source world :=
    Run.look_eq_ok_iff.mpr ⟨hread, rfl⟩
  unfold executeInspect
  rw [hlast]
  simp only [hfile]
  refine (Run.bind_of_ok hlook _).trans ?_
  refine (Run.bind_of_ok (readMethods_apply source world) _).trans ?_
  unfold shown
  cases (extractMethods source).isEmpty
  · refine (tellMethods_apply _ _).trans ?_
    rw [List.append_assoc]
    rfl
  · refine (tellMethods_apply _ _).trans ?_
    rw [List.append_assoc, List.append_assoc]
    rfl

/-- What is shown of a service is its controller in lines. -/
theorem text_shown (file : ServiceFile) (source : Text) :
    (shown file (extractMethods source)).flatMap Output.text =
      Text.ofLines (ofSource file source).overview := by
  have hroutes : (ofSource file source).routes =
      (extractMethods source).signatures.map Route.ofSignature := rfl
  have hlines : ((extractMethods source).signatures.map (.notice ∘ .methodInspected)).flatMap Output.text =
      Text.ofLines ((ofSource file source).routes.map Route.line) := by
    rw [hroutes, Text.ofLines, List.flatMap_map, List.flatMap_map, List.flatMap_map]
    rfl
  rw [shown, List.flatMap_cons, List.flatMap_append, hlines, overview, routeLines, hroutes,
    MethodMap.isEmpty]
  cases (extractMethods source).signatures with
  | nil => rfl
  | cons signature signatures => rfl

theorem executeInspect_of_unreadable {fault : Fault} (hlast : Path.fileName? path = some last)
    (hfile : ServiceFile.ofPath? last = some file) (hread : world.tree.read path = .error fault) :
    executeInspect path world = .error (.read path fault) world := by
  unfold executeInspect
  rw [hlast]
  simp only [hfile]
  exact Run.bind_of_error (Run.look_of_error _ hread) _

/-- What is shown of a service is what its controller is: if the name is a service file's and the service
can be read, showing it succeeds and changes nothing, its output is the controller in lines, and the
routes can be read off that; and a batch of this name writes that very controller, or fails to write it.
If nothing is shown because of the name, a batch refuses the name. -/
theorem inspect_agrees (host : Host) (serviceDir controllerDir name : Path) :
    (∀ file source world, ServiceFile.ofPath? name = some file →
      world.tree.read (Path.join serviceDir name) = .ok source →
        (∃ output, execute host (.inspect (Path.join serviceDir name)) world =
            .ok () ⟨world.tree, world.printed ++ output,
              world.logged ++ (extractMethods source).signatures.map .methodExtracted⟩ ∧
          output.flatMap Output.text = Text.ofLines (ofSource file source).overview ∧
          readOverview file (output.flatMap Output.text) = some (ofSource file source).routes) ∧
        (noRoutes ∈ (ofSource file source).routeLines ↔ (ofSource file source).routes = []) ∧
        match generateBatch serviceDir controllerDir [name] world with
        | .ok targets after =>
          targets = [file.controllerPath controllerDir] ∧
            Generates serviceDir controllerDir world.tree after.tree name file source
        | .error failure _ =>
          ∃ fault, failure = .writeController (file.controllerPath controllerDir) fault) ∧
    ∀ world failure after,
      execute host (.inspect (Path.join serviceDir name)) world = .error failure after →
        (∃ path, failure = .noFileName path ∨ failure = .unsupportedName path) →
          ∀ start, generateBatch serviceDir controllerDir [name] start =
            .error (.unsupportedName name) start := by
  refine ⟨fun file source world hparsed hread => ?_, fun world failure after hfail hname start => ?_⟩
  · obtain rfl := ServiceFile.fileName_of_ofPath? hparsed
    obtain ⟨hlast, halone⟩ := ServiceFile.ofPath?_last hparsed
    have hshown := executeInspect_of_read (Path.fileName?_join serviceDir hlast) halone hread
    -- the names around the last name alone are those around the whole path
    have htext : _ = Text.ofLines (ofSource file source).overview :=
      text_shown ⟨file.logicalName ++ sourceSuffix, file.logicalName⟩ source
    refine ⟨⟨_, hshown, htext, ?_⟩, noRoutes_mem_routeLines_iff, generateBatch_singleton hparsed hread⟩
    rw [htext, readOverview_overview]
  · refine generateBatch_singleton_of_none ?_
    by_contra hsome
    -- a service file is shown, or it cannot be read
    obtain ⟨file, hparsed⟩ := Option.ne_none_iff_exists'.mp hsome
    obtain ⟨hlast, halone⟩ := ServiceFile.ofPath?_last hparsed
    have hjoined := Path.fileName?_join serviceDir hlast
    cases hread : world.tree.read (Path.join serviceDir name) with
    | ok source => cases (executeInspect_of_read hjoined halone hread).symm.trans hfail
    | error fault =>
        cases (executeInspect_of_unreadable hjoined halone hread).symm.trans hfail
        obtain ⟨path, hpath | hpath⟩ := hname <;> cases hpath

/-- A tree with one service of two methods, and a file that is no service. -/
def petService : FileTree :=
  ⟨[], [(["c"], .dir), (["s"], .dir), (["s", "pet.js"], .file (.text "")),
    (["s", "pet.service.ts"], .file (.text "public find(id, req) public list()"))]⟩

theorem inspect_agrees_petService :
    ServiceFile.ofPath? "pet.service.ts" = some ⟨"pet.service.ts", "pet.service"⟩ ∧
      petService.read (Path.join "s" "pet.service.ts") = .ok "public find(id, req) public list()".toList ∧
      (∃ after, execute Project.idleHost (.inspect (Path.join "s" "pet.service.ts"))
          (.ofTree petService) = .ok () after ∧
        after.printed.flatMap Output.text = Text.ofLines [
          "PetService -> PetController (pet.controller.ts)",
          "  find(id) -> service.find(id, req)",
          "  list() -> service.list()"]) ∧
      execute Project.idleHost (.inspect (Path.join "s" "pet.js")) (.ofTree petService) =
        .error (.unsupportedName "pet.js") (.ofTree petService) ∧
      generateBatch "s" "c" ["pet.js"] (.ofTree petService) =
        .error (.unsupportedName "pet.js") (.ofTree petService) := by
  have hparsed : ServiceFile.ofPath? "pet.service.ts" = some ⟨"pet.service.ts", "pet.service"⟩ := by
    decide +kernel
  have hread : (World.ofTree petService).tree.read (Path.join "s" "pet.service.ts") =
      .ok "public find(id, req) public list()".toList := by decide +kernel
  have hrefused : execute Project.idleHost (.inspect (Path.join "s" "pet.js")) (.ofTree petService) =
      .error (.unsupportedName "pet.js") (.ofTree petService) := by rfl
  obtain ⟨⟨output, hshown, htext, -⟩, -⟩ :=
    (inspect_agrees Project.idleHost "s" "c" "pet.service.ts").1 _ _ _ hparsed hread
  refine ⟨hparsed, hread, ⟨_, hshown, htext.trans (by decide +kernel)⟩, hrefused, ?_⟩
  exact (inspect_agrees Project.idleHost "s" "c" "pet.js").2 _ _ _ hrefused ⟨_, Or.inr rfl⟩ _

end CommandLine

end ServiceScaffold
