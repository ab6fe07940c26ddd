import ServiceScaffold.Proofs.Project.Below

/-! # The module and its services

The module of a project that was generated from a document lists one controller and one provider for
each discovered service, in the order of the services. Each of these is imported from the file in
which its class stands.
-/

namespace ServiceScaffold

open FileTree

namespace Controller

/-- The declaration of a controller's class. -/
def declaration (className : Text) : Text := "export class " ++ className ++ " \x7b"

/-- The class of a controller is declared in its text. -/
theorem declaration_infix_render (controller : Controller) :
    declaration controller.className <:+: controller.render := by
  have hclass : "')\nexport class ".toList = "')\n".toList ++ "export class ".toList := by decide
  have hbody : " \x7b\n  constructor(private readonly service: ".toList =
      " \x7b".toList ++ "\n  constructor(private readonly service: ".toList := by decide
  have hpieces (front closing opening name brace body type first routes last : Text) :
      opening ++ name ++ brace <:+: front ++ (closing ++ opening) ++ name ++ (brace ++ body)
        ++ type ++ first ++ routes ++ last :=
    ⟨front ++ closing, body ++ type ++ first ++ routes ++ last, by simp only [List.append_assoc]⟩
  unfold declaration render
  rw [hclass, hbody]
  exact hpieces _ _ _ _ _ _ _ _ _ _

end Controller

/-! ## Services with their controllers -/

namespace Controller

variable {serviceDir controllerDir : Path} {names : List Text} {targets : List Path}
variable {world after : World}

/-- After a batch, a service stands where it did and its class is declared in its controller's file. -/
structure Written (serviceDir controllerDir : Path) (tree : FileTree) (name : Text)
    (file : ServiceFile) : Prop where
  parsed : ServiceFile.ofPath? name = some file
  service : ∃ source, tree.entry? (tree.placeOf (Path.join serviceDir name)) =
    some (.file (.text source))
  controller : ∃ text, tree.read (file.controllerPath controllerDir) = .ok text ∧
    declaration file.controllerType <:+: text

theorem written_of_ready {step : ServiceFile × Text} {steps : List (ServiceFile × Text)}
    (hfree : world.tree.LinkFree)
    (hapart : Apart serviceDir controllerDir world.tree (names.filterMap ServiceFile.ofPath?))
    (heffect : Effect serviceDir controllerDir world.tree after.tree (steps.map Prod.fst))
    (hnames : names.map ServiceFile.ofPath? = (steps.map Prod.fst).map some) (hstep : step ∈ steps)
    {name : Text} (hready : Ready serviceDir controllerDir world.tree name step) :
    Written serviceDir controllerDir after.tree name step.1 := by
  have hfile : step.1 ∈ steps.map Prod.fst := List.mem_map_of_mem hstep
  refine ⟨hready.parsed, ⟨step.2, ?_⟩, ?_⟩
  · rw [placeOf_congr heffect.workingDir, ← ServiceFile.fileName_of_ofPath? hready.parsed]
    refine (heffect.frame _ fun hmem => ?_).trans (entry?_of_read hfree hready.read)
    obtain ⟨file, hmem, hplace⟩ := List.mem_map.mp hmem
    rw [ServiceFile.filterMap_ofPath? hnames] at hapart
    exact hapart file hmem step.1 hfile hplace
  · -- the last service with the same controller file has the same class
    obtain ⟨-, other, -, -, hsame, -, source, -, hread⟩ := heffect.exists_hasController hfile
    refine ⟨_, by rwa [ServiceFile.controllerPath, hsame] at hread, ?_⟩
    have hclass : (ofSource other source).className = step.1.controllerType :=
      congrArg (Text.capitalize · ++ "Controller") (ServiceFile.controllerFile_inj.mp hsame)
    exact hclass ▸ declaration_infix_render (ofSource other source)

theorem written_of_batch (hplain : world.tree.Plain)
    (hapart : Apart serviceDir controllerDir world.tree (names.filterMap ServiceFile.ofPath?))
    (hok : generateBatch serviceDir controllerDir names world = .ok targets after) :
    ∃ files : List ServiceFile, names.map ServiceFile.ofPath? = files.map some ∧
      targets = files.map (ServiceFile.controllerPath controllerDir) ∧
      List.Forall₂ (Written serviceDir controllerDir after.tree) names files ∧ after.tree.Plain := by
  obtain ⟨steps, hall, rfl, hlast, -, heffect⟩ := ready_of_batch hplain.linkFree hapart hok
  have hnames := map_ofPath?_of_ready hall
  refine ⟨steps.map Prod.fst, hnames, by rw [List.map_map]; rfl, ?_, ?_⟩
  · rw [List.forall₂_map_right_iff]
    refine List.forall₂_iff_zip.mpr ⟨hall.length_eq, fun {name step} hmem => ?_⟩
    exact written_of_ready hplain.linkFree hapart heffect hnames (List.of_mem_zip hmem).2
      ((List.forall₂_iff_zip.mp hall).2 hmem)
  · rw [hlast]
    refine hplain.putAll fun write hwrite => ?_
    obtain ⟨step, -, rfl⟩ := List.mem_map.mp hwrite
    exact hplain.isSegment_of_mem_placeOf _

end Controller

namespace Project

variable {host : Host} {settings : Settings} {options : ProjectOptions} {document : Text}
variable {world after : World} {contents : ModuleContents} {report : Report}

/-- Seen from a directory, the path of an import leads to the target. -/
def Imports (dir path target : Path) : Prop :=
  ∃ below, path ++ sourceSuffix = "./" ++ below ∧ Path.join dir below = target

/-- The imports of a controller and of a provider agree with the discovered service and with the
controller that was written for it. -/
structure Wired (options : ProjectOptions) (tree : FileTree) (name : Text) (written : Path)
    (controller provider : ModuleImport) : Prop where
  controllerPath : Imports options.moduleDir controller.path written
  /-- The path of the controller itself leads there as long as that of the module's directory leads
  to a directory. -/
  controllerText : ∃ text, tree.entry? (tree.placeOf written) = some (.file (.text text)) ∧
    (tree.isDir options.moduleDir = true → tree.read written = .ok text) ∧
    Controller.declaration controller.className <:+: text
  providerPath : Imports options.moduleDir provider.path (Path.join options.serviceDir name)
  providerText : ∃ text,
    tree.entry? (tree.placeOf (Path.join options.serviceDir name)) = some (.file (.text text))
  providerClass : ∃ file, ServiceFile.ofPath? name = some file ∧ provider.className = file.serviceType

/-! ## Names -/

/-- An import of a controller leads to the file of that name in the controllers' directory. -/
theorem imports_controllerFile {base : Text} (hname : Path.IsSegment (base ++ controllerSuffix)) :
    Imports options.moduleDir ("./controllers/" ++ base ++ ".controller")
      (Path.join options.controllerDir (base ++ controllerSuffix)) := by
  refine ⟨"controllers" ++ '/' :: (base ++ controllerSuffix), ?_, ?_⟩
  · have hbelow : "./controllers/".toList = "./".toList ++ ("controllers".toList ++ ['/']) := by decide
    have hending : controllerSuffix = ".controller".toList ++ sourceSuffix := by decide
    simp only [hbelow, hending, List.append_assoc, List.cons_append, List.nil_append]
  · exact (Path.join_join (by decide) hname.isAbsolute_eq).symm

theorem imports_controllerImport {name : Text} {file : ServiceFile}
    (hfile : ServiceFile.ofPath? name = some file) :
    Imports options.moduleDir (controllerImport file).path
      (file.controllerPath options.controllerDir) :=
  imports_controllerFile (ServiceFile.isSegment_controllerFile hfile)

theorem imports_providerImport {name : Text} {file : ServiceFile} (hname : Path.IsSegment name)
    (hfile : ServiceFile.ofPath? name = some file) :
    Imports options.moduleDir (providerImport file).path (Path.join options.serviceDir name) := by
  refine ⟨"services" ++ '/' :: name, ?_, ?_⟩
  · have hbelow : "./services/".toList = "./".toList ++ ("services".toList ++ ['/']) := by decide
    simp only [providerImport, ServiceFile.eq_logicalName_append hname hfile, hbelow,
      List.append_assoc, List.cons_append, List.nil_append]
  · exact (Path.join_join (by decide) hname.isAbsolute_eq).symm

/-! ## The end of a project -/

theorem finish_ok (hplain : world.tree.Plain) (hok : finish options contents world = .ok () after) :
    after.tree.Plain ∧ after.tree.workingDir = world.tree.workingDir ∧
      after.tree.entry? (world.tree.placeOf (modulePath options)) = some (.file (.text
        (serviceModule options.serviceClass contents.controllers contents.providers))) ∧
      ∀ place entry, world.tree.entry? place = some entry →
        place ≠ world.tree.placeOf (modulePath options) →
        (entry = .dir → place ≠ world.tree.placeOf (Path.join options.moduleDir "model") ∧
          place ≠ world.tree.placeOf options.serviceDir) →
        after.tree.entry? place = some entry := by
  have hend := (kept_plain.finish options contents).of_ok hok hplain
  obtain ⟨written, first, hwrite, hok⟩ := Run.bind_eq_ok_iff.mp hok
  obtain ⟨model, second, hmodel, hok⟩ := Run.bind_eq_ok_iff.mp hok
  obtain ⟨services, third, hservices, hok⟩ := Run.bind_eq_ok_iff.mp hok
  cases hok
  have hfirst := (kept_plain.writeUnlessThere _ _ _).of_ok hwrite hplain
  have hsecond := (Run.keeps_removeDirIfEmpty (kept_plain.removeDir _)).of_ok hmodel hfirst
  obtain ⟨middle, hextends, hroot, hput⟩ := Run.writeUnlessThere_ok hplain hwrite
  have hmodelSheds := Run.removeDirIfEmpty_ok hfirst hmodel
  have hserviceSheds := Run.removeDirIfEmpty_ok hsecond hservices
  have hworking : first.tree.workingDir = world.tree.workingDir := by
    rw [hput, put_workingDir, hextends.workingDir]
  have hplace := placeOf_congr hworking
  have hplace' := placeOf_congr (hmodelSheds.workingDir.trans hworking)
  refine ⟨hend, ?_, ?_, fun place entry hentry hmodule hdir => ?_⟩
  · exact hserviceSheds.workingDir.trans (hmodelSheds.workingDir.trans hworking)
  -- only directories are removed, so the module stays and so does every other file
  · refine hserviceSheds.entries _ _ (hmodelSheds.entries _ _ ?_ (by simp)) (by simp)
    rw [hput, entry?_put hroot, if_pos rfl]
  · refine hserviceSheds.entries _ _ (hmodelSheds.entries _ _ ?_ ?_) ?_
    · rw [hput, entry?_put hroot, if_neg hmodule]
      exact hextends.entries place entry hentry
    · intro heq
      exact hplace _ ▸ (hdir heq).1
    · intro heq
      exact hplace' _ ▸ (hdir heq).2

/-! ## Places around the module -/

section

variable {tree : FileTree}

theorem placeOf_controllerDir (options : ProjectOptions) (tree : FileTree) :
    tree.placeOf options.controllerDir =
      tree.placeOf options.moduleDir ++ ["controllers".toList] := placeOf_join (by decide) _ _

theorem placeOf_serviceDir (options : ProjectOptions) (tree : FileTree) :
    tree.placeOf options.serviceDir = tree.placeOf options.moduleDir ++ ["services".toList] :=
  placeOf_join (by decide) _ _

/-- No file of a service or of a controller is the module. -/
theorem below_ne_modulePath (hmodule : Path.IsSegment (options.service ++ ".module.ts"))
    (dir name : Text) :
    tree.placeOf options.moduleDir ++ [dir] ++ [name] ≠ tree.placeOf (modulePath options) := by
  rw [modulePath, placeOf_join hmodule]
  intro heq
  simpa using congrArg List.length heq

/-- The controllers' directory is not the module. -/
theorem controllerDir_ne_modulePath (hmodule : Path.IsSegment (options.service ++ ".module.ts")) :
    tree.placeOf options.controllerDir ≠ tree.placeOf (modulePath options) := by
  rw [placeOf_controllerDir, modulePath, placeOf_join hmodule]
  intro heq
  have hname := List.singleton_inj.mp (List.append_cancel_left heq)
  have hsuffix : ".module.ts".toList <:+ "controllers".toList := ⟨options.service, hname.symm⟩
  exact absurd hsuffix (by decide)

end

/-! ## What was wired stays wired -/

variable {name : Text} {file : ServiceFile}

/-- What stood in the controllers' directory is still read through its path, if that of the module's
directory leads to a directory. -/
theorem read_controller (hplain : world.tree.Plain)
    (hmodule : Path.IsSegment (options.service ++ ".module.ts")) (hname : Path.IsSegment name)
    (hok : finish options contents world = .ok () after)
    (hdir : after.tree.isDir options.moduleDir = true) {text : Text}
    (hread : world.tree.read (Path.join options.controllerDir name) = .ok text) :
    after.tree.read (Path.join options.controllerDir name) = .ok text := by
  obtain ⟨hend, hworking, -, hkept⟩ := finish_ok hplain hok
  have hcontrollers : Path.IsSegment "controllers" := by decide
  obtain ⟨haccept, hdirs, hlong, hentry⟩ := (read_join_eq_ok_iff hname hplain.linkFree).mp hread
  obtain ⟨-, hlongDir, hentryDir⟩ := (passable_join_iff hcontrollers).mp hdirs
  refine (read_join_eq_ok_iff hname hend.linkFree).mpr ⟨haccept, ?_, hlong, ?_⟩
  · refine (passable_join_iff hcontrollers).mpr ⟨passable_of_isDir hend.linkFree hdir, hlongDir, ?_⟩
    rw [placeOf_congr hworking]
    -- the controllers' directory is none of what is removed at the end
    refine hkept _ _ hentryDir ?_ fun _ => ⟨?_, ?_⟩
    · exact placeOf_controllerDir options world.tree ▸ controllerDir_ne_modulePath hmodule
    · rw [placeOf_join (by decide)]
      simp
    · rw [placeOf_serviceDir]
      simp
  · rw [placeOf_congr hworking]
    refine hkept _ _ hentry ?_ (by simp)
    rw [placeOf_controllerDir]
    exact below_ne_modulePath hmodule _ _

theorem wired_of_written (hplain : world.tree.Plain)
    (hmodule : Path.IsSegment (options.service ++ ".module.ts")) (hname : Path.IsSegment name)
    (hwritten : Controller.Written options.serviceDir options.controllerDir world.tree name file)
    (hok : finish options contents world = .ok () after) :
    Wired options after.tree name (file.controllerPath options.controllerDir) (controllerImport file)
      (providerImport file) := by
  obtain ⟨-, hworking, -, hkept⟩ := finish_ok hplain hok
  have hplace := placeOf_congr hworking
  have hfile := ServiceFile.isSegment_controllerFile hwritten.parsed
  refine ⟨imports_controllerImport hwritten.parsed, ?_,
    imports_providerImport hname hwritten.parsed, ?_, file, hwritten.parsed, rfl⟩
  · obtain ⟨text, hread, hclass⟩ := hwritten.controller
    refine ⟨text, ?_, fun hdir => read_controller hplain hmodule hfile hok hdir hread, hclass⟩
    rw [hplace]
    refine hkept _ _ (entry?_of_read hplain.linkFree hread) ?_ (by simp)
    rw [ServiceFile.controllerPath, placeOf_join hfile, placeOf_controllerDir]
    exact below_ne_modulePath hmodule _ _
  · obtain ⟨text, hentry⟩ := hwritten.service
    refine ⟨text, ?_⟩
    rw [hplace]
    refine hkept _ _ hentry ?_ (by simp)
    rw [placeOf_join hname, placeOf_serviceDir]
    exact below_ne_modulePath hmodule _ _

/-! ## The whole project -/

theorem exists_getElem?_of_forall₂ {α β : Type} {related : α → β → Prop} {first : List α}
    {second : List β} (hall : List.Forall₂ related first second) {i : Nat} {item : α}
    (hitem : first[i]? = some item) : ∃ other, second[i]? = some other ∧ related item other := by
  induction hall generalizing i with
  | nil => simp at hitem
  | cons hrelated _ ih =>
      cases i with
      | zero =>
          obtain rfl := Option.some.inj hitem
          exact ⟨_, rfl, hrelated⟩
      | succ i => exact ih hitem

/-- No controller of a project stands where one of its services does. -/
theorem apart_of_discovered {filter : ServiceFilter} {names : List Text}
    (hdiscovered : filter.Discovered names) (tree : FileTree) :
    Controller.Apart options.serviceDir options.controllerDir tree
      (names.filterMap ServiceFile.ofPath?) := by
  refine Controller.apart_of_ne ?_ fun file hfile => ?_
  · rw [placeOf_serviceDir, placeOf_controllerDir]
    simp
  · obtain ⟨name, hname, hread⟩ := List.mem_filterMap.mp hfile
    rw [ServiceFile.fileName_of_ofPath? hread]
    exact ⟨hdiscovered.ordinary name hname, ServiceFile.isSegment_controllerFile hread⟩

theorem written_of_writeControllers {filter : ServiceFilter} (hplain : world.tree.Plain)
    (hok : writeControllers filter options.serviceDir options.controllerDir world =
      .ok contents after) :
    ∃ names found, filter.discover options.serviceDir world = .ok names found ∧
      filter.Discovered names ∧ ∃ files : List ServiceFile,
        contents = ⟨files.map controllerImport, files.map providerImport,
          files.map (ServiceFile.controllerPath options.controllerDir)⟩ ∧
        List.Forall₂ (Controller.Written options.serviceDir options.controllerDir after.tree)
          names files ∧ after.tree.Plain := by
  obtain ⟨names, found, hdiscover, hcase⟩ := writeControllers_ok hok
  obtain ⟨rfl, -⟩ := ServiceFilter.discover_eq_ok hdiscover
  have hdiscovered := ServiceFilter.discovered_of_discover hplain hdiscover
  refine ⟨names, found, hdiscover, hdiscovered, ?_⟩
  rcases hcase with ⟨rfl, rfl, htree⟩ | ⟨created, written, hcreate, hbatch, rfl⟩
  · exact ⟨[], rfl, .nil, htree ▸ hplain⟩
  · have hcreated := (Run.createDir_ok hplain hcreate).1
    obtain ⟨files, hparsed, rfl, hall, hgenerated⟩ :=
      Controller.written_of_batch hcreated (apart_of_discovered hdiscovered created.tree) hbatch
    refine ⟨files, ?_, hall, hgenerated⟩
    rw [moduleOf, ServiceFile.filterMap_ofPath? hparsed]

/-- A project that was generated from a document has one controller and one provider in its module
for each service that was discovered, in the order of the services, and the module imports each of
them from the file in which it stands. -/
theorem scaffold_wiring (hplain : world.tree.Plain) (hhost : host.Keeps Plain)
    (hdocument : options.document? = some document)
    (hok : scaffold host settings options world = .ok report after)
    (hreport : report.openApiFailure? = none) :
    ∃ staged imported middle names found, ∃ controllers providers : List ModuleImport,
      prepare options world = .ok () staged ∧
      importServices host settings options document staged = .ok imported middle ∧
      settings.services.discover imported.serviceDir middle = .ok names found ∧
      names.Pairwise (fun first second => Text.ble first second = true) ∧
      report.controllers.length = names.length ∧ controllers.length = names.length ∧
      providers.length = names.length ∧
      (∀ (i : Nat) (name : Text), names[i]? = some name → ∃ written controller provider,
        report.controllers[i]? = some written ∧ controllers[i]? = some controller ∧
        providers[i]? = some provider ∧
        Wired options after.tree name written controller provider) ∧
      after.tree.entry? (after.tree.placeOf (modulePath options)) =
        some (.file (.text (serviceModule options.serviceClass controllers providers))) := by
  obtain ⟨staged, imported, middle, contents, generated, told, hprepare, himport, hwrite, htold,
    hfinish, hcontrollers⟩ := scaffold_ok hdocument hok hreport
  have hstaged := (keeps_prepare kept_plain options).of_ok hprepare hplain
  have hmiddle := (keeps_importServices kept_plain hhost settings options document).of_ok himport
    hstaged
  have hmodule := isSegment_moduleFile (fault?_of_prepare_ok hprepare)
  have hdir := returns_importServices host settings options document _ _ _ himport
  rw [hdir] at hwrite
  obtain ⟨names, found, hdiscover, hdiscovered, files, rfl, hall, hgenerated⟩ :=
    written_of_writeControllers hmiddle hwrite
  rw [← htold] at hall hgenerated
  obtain ⟨-, hworking, htext, -⟩ := finish_ok hgenerated hfinish
  have hlength := hall.length_eq
  refine ⟨staged, imported, middle, names, found, files.map controllerImport,
    files.map providerImport, hprepare, himport, hdir ▸ hdiscover, hdiscovered.sorted, ?_, ?_, ?_,
    fun i name hname => ?_, ?_⟩
  · rw [hcontrollers, List.length_map, hlength]
  · rw [List.length_map, hlength]
  · rw [List.length_map, hlength]
  · obtain ⟨file, hfile, hwritten⟩ := exists_getElem?_of_forall₂ hall hname
    refine ⟨file.controllerPath options.controllerDir, controllerImport file, providerImport file,
      ?_, ?_, ?_, ?_⟩
    · rw [hcontrollers, List.getElem?_map, hfile, Option.map_some]
    · rw [List.getElem?_map, hfile, Option.map_some]
    · rw [List.getElem?_map, hfile, Option.map_some]
    · -- what the batch left is what the end of the project starts from, and it is kept there
      have hordinary := hdiscovered.ordinary name (List.mem_of_getElem? hname)
      exact wired_of_written hgenerated hmodule hordinary hwritten hfinish
  · rw [placeOf_congr hworking]
    exact htext

/-- A small project from a document. -/
def smallProject (outputDir : Path) : ProjectOptions where
  application := "a"
  service := "s"
  document? := some "http://d".toList
  outputDir := outputDir

/-- A host whose programs put these entries into the tree one after another, and end like this. -/
def puttingHost (entries : List (Location × Entry)) (status : ExitStatus) : Host where
  environment _ := none
  launch _ _ tree := .ok ⟨entries.foldl (fun tree pair => tree.put pair.1 pair.2) tree, [], status⟩
  wording := .plain

/-- One service in the directory that the generator is given in the small project. -/
def generatedService (name source : Text) : List (Location × Entry) :=
  [(["a-s", "__openapi-temp__"], .dir), (["a-s", "__openapi-temp__", "api"], .dir),
    (["a-s", "__openapi-temp__", "api", name], .file (.text source))]

/-- Where no links are put and only ordinary names, trees stay plain. -/
theorem plain_of_puttingHost {entries : List (Location × Entry)} {status : ExitStatus} {program : Text}
    {arguments : List Text} {tree : FileTree} {launched : Launched}
    (hentries : ∀ pair ∈ entries, (∀ name ∈ pair.1, Path.IsSegment name) ∧ pair.2.isLink = false)
    (hlaunch : (puttingHost entries status).launch program arguments tree = .ok launched)
    (hplain : tree.Plain) :
    launched.tree.Plain ∧ launched.tree.workingDir = tree.workingDir := by
  cases hlaunch
  induction entries generalizing tree with
  | nil => exact ⟨hplain, rfl⟩
  | cons pair entries ih =>
      obtain ⟨⟨hnames, hlink⟩, hrest⟩ := List.forall_mem_cons.mp hentries
      exact ih hrest (hplain.put hnames (Entry.isLink_eq_false_iff.mp hlink))

/-- A host whose generator writes one service into the directory that it is given in the small
project. -/
def petHost : Host where
  environment _ := none
  launch _ _ tree :=
    .ok ⟨((tree.put ["a-s", "__openapi-temp__"] .dir).put ["a-s", "__openapi-temp__", "api"] .dir).put
      ["a-s", "__openapi-temp__", "api", "pet.service.ts"] (.file (.text "public find()")), [], .code 0⟩
  wording := .plain

theorem scaffold_wiring_smallProject :
    ∃ report after, scaffold petHost {} (smallProject ".") (.ofTree ⟨[], []⟩) = .ok report after ∧
      ∃ written name controller provider, report.controllers = [written] ∧
        Wired (smallProject ".") after.tree name written controller provider ∧
        after.tree.entry? (after.tree.placeOf (modulePath (smallProject "."))) =
          some (.file (.text (serviceModule "S" [controller] [provider]))) := by
  have hok : Run.endsIn
      (fun report _ => report.openApiFailure? = none ∧ report.controllers.length = 1)
      (scaffold petHost {} (smallProject ".") (.ofTree ⟨[], []⟩)) = true := by
    decide +kernel
  obtain ⟨report, after, hok, hchecked⟩ := Run.exists_ok_of_endsIn hok
  obtain ⟨hreport, hone⟩ := of_decide_eq_true hchecked
  have hhost : petHost.Keeps Plain := by
    intro program arguments tree launched hlaunch hplain
    cases hlaunch
    refine ((hplain.put ?_ (by simp)).put ?_ (by simp)).put ?_ (by simp)
    all_goals decide +kernel
  obtain ⟨-, -, -, names, -, controllers, providers, -, -, -, -, hwritten, hcontrollers, hproviders,
      hwired, htext⟩ :=
    scaffold_wiring (by decide +kernel) hhost rfl hok hreport
  rw [hone] at hwritten
  obtain ⟨name, rfl⟩ := List.length_eq_one_iff.mp hwritten.symm
  obtain ⟨controller, rfl⟩ := List.length_eq_one_iff.mp hcontrollers
  obtain ⟨provider, rfl⟩ := List.length_eq_one_iff.mp hproviders
  obtain ⟨written, hreported⟩ := List.length_eq_one_iff.mp hone
  rw [hreported] at hwired
  obtain ⟨_, _, _, ⟨⟩, ⟨⟩, ⟨⟩, hpet⟩ := hwired 0 name rfl
  exact ⟨report, after, hok, written, name, controller, provider, hreported, hpet, htext⟩

/-- A host whose programs do nothing. -/
def idleHost : Host := ⟨fun _ => none, fun _ _ tree => .ok ⟨tree, [], .code 0⟩, .plain⟩

/-- The directories of the small project, with one service. -/
def smallTree : FileTree :=
  ⟨[], [(["a-s"], .dir), (["a-s", "src"], .dir), (["a-s", "src", "modules"], .dir),
    (["a-s", "src", "modules", "s"], .dir), (["a-s", "src", "modules", "s", "controllers"], .dir),
    (["a-s", "src", "modules", "s", "services"], .dir),
    (["a-s", "src", "modules", "s", "services", "pet.service.ts"], .file (.text "public find()"))]⟩

/-- A symbolic link in place of the module leads its text over a controller; and the path of a
controller leads nowhere if it passes the models' directory, which is removed. -/
theorem exists_unwired :
    (∃ report after, scaffold idleHost {} (smallProject ".")
        (.ofTree (smallTree.put ["a-s", "src", "modules", "s", "s.module.ts"]
          (.link "controllers/pet.controller.ts"))) = .ok report after ∧
      report.openApiFailure? = none ∧ ∃ path, report.controllers = [path] ∧
        ∃ text, after.tree.read path = .ok text ∧
          ¬ Controller.declaration "PetController" <:+: text) ∧
    ∃ report after, scaffold idleHost {} (smallProject "a-s/src/modules/s/model/../../../../..")
        (.ofTree (smallTree.put ["a-s", "src", "modules", "s", "model"] .dir)) = .ok report after ∧
      report.openApiFailure? = none ∧ ∃ path, report.controllers = [path] ∧
        after.tree.read path = .error .notFound := by
  constructor
  · let path : Path := "./a-s/src/modules/s/controllers/pet.controller.ts"
    let text : Text := serviceModule "S" [⟨"PetController", "./controllers/pet.controller"⟩]
      [⟨"PetService", "./services/pet.service"⟩]
    have hends : Run.endsIn (fun report tree =>
        report.openApiFailure? = none ∧ report.controllers = [path] ∧ tree.read path = .ok text)
        (scaffold idleHost {} (smallProject ".")
          (.ofTree (smallTree.put ["a-s", "src", "modules", "s", "s.module.ts"]
            (.link "controllers/pet.controller.ts")))) = true := by
      decide +kernel
    obtain ⟨report, after, hok, hchecked⟩ := Run.exists_ok_of_endsIn hends
    obtain ⟨hreport, hpath, hread⟩ := of_decide_eq_true hchecked
    refine ⟨report, after, hok, hreport, path, hpath, text, hread, ?_⟩
    rw [← Text.occursIn_iff]
    decide +kernel
  · let path : Path :=
      "a-s/src/modules/s/model/../../../../../a-s/src/modules/s/controllers/pet.controller.ts"
    have hends : Run.endsIn (fun report tree =>
        report.openApiFailure? = none ∧ report.controllers = [path] ∧
          tree.read path = .error .notFound)
        (scaffold idleHost {} (smallProject "a-s/src/modules/s/model/../../../../..")
          (.ofTree (smallTree.put ["a-s", "src", "modules", "s", "model"] .dir))) = true := by
      decide +kernel
    obtain ⟨report, after, hok, hchecked⟩ := Run.exists_ok_of_endsIn hends
    obtain ⟨hreport, hpath, hread⟩ := of_decide_eq_true hchecked
    exact ⟨report, after, hok, hreport, path, hpath, hread⟩

end Project

end ServiceScaffold
