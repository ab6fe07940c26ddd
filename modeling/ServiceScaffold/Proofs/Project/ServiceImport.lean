import ServiceScaffold.Proofs.Project.Wiring
import ServiceScaffold.Proofs.Text.Repetition

/-! # The service that a controller imports

The import of a service is written twice: the module takes the path of its provider from the logical
name, the controller puts the marker behind its own base name. The two are one file exactly when the
name has its markers at the end and nowhere before, whatever the filter asks for.
-/

namespace ServiceScaffold

open FileTree

theorem unbordered_serviceMarker : Text.Unbordered serviceMarker := Text.unbordered_cons (by decide)

namespace Project

variable {path name : Path} {file : ServiceFile} {tree : FileTree} {options : ProjectOptions}

/-- The import of the framework in a controller. -/
def frameworkImport : Text :=
  "import \x7b Controller, Get, Post, Body, Query \x7d from '@nestjs/common';\n"

/-- The import of a service in its controller. -/
def serviceImport (file : ServiceFile) : ModuleImport :=
  ⟨file.serviceType, "../services/" ++ file.baseName ++ ".service"⟩

/-- The logical name ends in one marker or more, and has none before. -/
def MarkedAtEnd (file : ServiceFile) : Prop := ∃ front count, ¬ serviceMarker <:+: front ∧
  file.logicalName = front ++ Text.repeated (count + 1) serviceMarker

/-- The place of the file that an item is imported from in a directory. -/
def importedPlace (tree : FileTree) (dir : Path) (item : ModuleImport) : Location :=
  tree.placeOf (Path.join dir (item.path ++ sourceSuffix))

/-- The text of a controller starts with two imports, and the second one is that of its service. -/
theorem exists_render_eq (file : ServiceFile) (source : Text) :
    ∃ rest, (Controller.ofSource file source).render =
      frameworkImport ++ (serviceImport file).statement ++ "\n@Controller('".toList ++ rest := by
  have hopening : frameworkImport ++ "import \x7b ".toList =
      "import \x7b Controller, Get, Post, Body, Query \x7d from '@nestjs/common';\nimport \x7b ".toList := by
    decide
  have hspecifier : " \x7d from '".toList ++ "../services/".toList = " \x7d from '../services/".toList := by
    decide
  have hclosing : ".service".toList ++ ("';\n".toList ++ "\n@Controller('".toList) =
      ".service';\n\n@Controller('".toList := by decide
  have hpieces (framework opening type quote dir base marker closing decorator name brace className
      body type' first routes last : Text) :
      ∃ rest, framework ++ opening ++ type ++ (quote ++ dir) ++ base ++ (marker ++ (closing ++ decorator))
          ++ name ++ brace ++ className ++ body ++ type' ++ first ++ routes ++ last =
        framework ++ (opening ++ type ++ quote ++ (dir ++ base ++ marker) ++ closing) ++ decorator ++ rest :=
    ⟨name ++ brace ++ className ++ body ++ type' ++ first ++ routes ++ last, by
      simp only [List.append_assoc]⟩
  unfold Controller.render
  rw [← hopening, ← hspecifier, ← hclosing]
  exact hpieces _ _ _ _ _ _ _ _ _ _ _ _ _ _ _ _ _

theorem serviceImport_path (file : ServiceFile) :
    (serviceImport file).path = "../services/" ++ (file.baseName ++ serviceMarker) :=
  List.append_assoc _ _ _

theorem serviceImport_path_eq_iff :
    (serviceImport file).path = "../services/" ++ file.logicalName ↔ MarkedAtEnd file := by
  rw [serviceImport_path, List.append_right_inj]
  exact unbordered_serviceMarker.removeFirst_append_eq_iff

/-! ## The files that are imported -/

/-- A relative path goes on from the place of the directory that it is joined to. -/
theorem placeOf_join_of_relative (hpath : path.isAbsolute = false) (tree : FileTree) (dir : Path) :
    tree.placeOf (Path.join dir path) = path.steps.foldl Location.follow (tree.placeOf dir) := by
  rw [placeOf, placeOf, startOf, startOf, Path.isAbsolute_join hpath, Path.steps_join hpath,
    List.foldl_append]

theorem steps_services (hname : Path.IsSegment name) :
    Path.steps ("services".toList ++ '/' :: name) = [.name "services", .name name] := by
  have hservices : Path.IsSegment "services" := by decide
  rw [Path.steps_append_cons, hservices.steps_eq, hname.steps_eq]
  rfl

/-- From the controllers' directory an import goes up, and then down to the services. -/
theorem placeOf_fromControllers (hname : Path.IsSegment name) (options : ProjectOptions)
    (tree : FileTree) : tree.placeOf (Path.join options.controllerDir ("../services/" ++ name)) =
      tree.placeOf (Path.join options.serviceDir name) := by
  have hspecifier : "../services/".toList ++ name = "..".toList ++ '/' :: ("services".toList ++ '/' :: name) :=
    rfl
  have hup : Path.steps "..".toList = [.up] := by decide
  rw [hspecifier, placeOf_join_of_relative rfl, Path.steps_append_cons, hup, steps_services hname,
    placeOf_controllerDir, placeOf_join hname, placeOf_serviceDir]
  simp [Location.follow]

theorem placeOf_fromModule (hname : Path.IsSegment name) (options : ProjectOptions) (tree : FileTree) :
    tree.placeOf (Path.join options.moduleDir ("./services/" ++ name)) =
      tree.placeOf (Path.join options.serviceDir name) := by
  have hspecifier : "./services/".toList ++ name = ".".toList ++ '/' :: ("services".toList ++ '/' :: name) :=
    rfl
  have hhere : Path.steps ".".toList = [.here] := by decide
  rw [hspecifier, placeOf_join_of_relative rfl, Path.steps_append_cons, hhere, steps_services hname,
    placeOf_join hname, placeOf_serviceDir]
  simp [Location.follow]

theorem isSegment_logicalName (hfile : ServiceFile.ofPath? path = some file) :
    Path.IsSegment (file.logicalName ++ sourceSuffix) :=
  (Path.fileName?_eq_some (ServiceFile.ofPath?_eq_some_iff.mp hfile).2.1).1

theorem isSegment_importedService (hfile : ServiceFile.ofPath? path = some file) :
    Path.IsSegment (file.baseName ++ serviceMarker ++ sourceSuffix) := by
  rw [List.append_assoc]
  refine Path.isSegment_append (fun hmem => ?_) (by decide) (by decide)
  refine (isSegment_logicalName hfile).noSeparator (List.mem_append_left _ ?_)
  exact Text.mem_of_mem_removeFirst hmem

theorem importedPlace_providerImport (hfile : ServiceFile.ofPath? path = some file)
    (options : ProjectOptions) (tree : FileTree) :
    importedPlace tree options.moduleDir (providerImport file) =
      tree.placeOf (Path.join options.serviceDir (file.logicalName ++ sourceSuffix)) := by
  rw [importedPlace, providerImport, List.append_assoc, placeOf_fromModule (isSegment_logicalName hfile)]

theorem importedPlace_serviceImport (hfile : ServiceFile.ofPath? path = some file)
    (options : ProjectOptions) (tree : FileTree) :
    importedPlace tree options.controllerDir (serviceImport file) =
      tree.placeOf (Path.join options.serviceDir (file.baseName ++ serviceMarker ++ sourceSuffix)) := by
  rw [importedPlace, serviceImport_path, List.append_assoc,
    placeOf_fromControllers (isSegment_importedService hfile)]

/-- The two imports of a service are of one file if its name has its markers at the end and nowhere
before. -/
theorem importedPlace_eq_iff (hfile : ServiceFile.ofPath? path = some file) :
    importedPlace tree options.controllerDir (serviceImport file) =
      importedPlace tree options.moduleDir (providerImport file) ↔ MarkedAtEnd file := by
  rw [importedPlace_serviceImport hfile, importedPlace_providerImport hfile,
    placeOf_join (isSegment_importedService hfile), placeOf_join (isSegment_logicalName hfile),
    List.append_right_inj, List.singleton_inj, List.append_left_inj]
  exact unbordered_serviceMarker.removeFirst_append_eq_iff

/-! ## The law of the import -/

/-- The controller of a service imports, under the name of the service's class, the file that its
base name and the marker give. That is the logical name, and the file that the module imports as
provider, exactly when the name has its markers at the end and nowhere before. -/
theorem controller_imports (hfile : ServiceFile.ofPath? path = some file) (source : Text)
    (options : ProjectOptions) (tree : FileTree) :
    (∃ rest, (Controller.ofSource file source).render =
      frameworkImport ++ (serviceImport file).statement ++ "\n@Controller('".toList ++ rest) ∧
    (serviceImport file).className = (providerImport file).className ∧
    ((serviceImport file).path = "../services/" ++ file.logicalName ↔ MarkedAtEnd file) ∧
    (importedPlace tree options.controllerDir (serviceImport file) =
      importedPlace tree options.moduleDir (providerImport file) ↔ MarkedAtEnd file) ∧
    (Path.IsSegment path → importedPlace tree options.moduleDir (providerImport file) =
      tree.placeOf (Path.join options.serviceDir path)) := by
  refine ⟨exists_render_eq file source, rfl, serviceImport_path_eq_iff, importedPlace_eq_iff hfile,
    fun hpath => ?_⟩
  rw [importedPlace_providerImport hfile, ← ServiceFile.eq_logicalName_append hpath hfile]

theorem controller_imports_pet :
    ({} : ServiceFilter).accepts "pet.service.ts" = true ∧
    ServiceFile.ofPath? "pet.service.ts" = some ⟨"pet.service.ts", "pet.service"⟩ ∧
    importedPlace smallTree (smallProject ".").controllerDir
        (serviceImport ⟨"pet.service.ts", "pet.service"⟩) =
      smallTree.placeOf (Path.join (smallProject ".").serviceDir "pet.service.ts") := by
  have hfile : ServiceFile.ofPath? "pet.service.ts" =
      some ⟨"pet.service.ts", "pet.service"⟩ := by decide +kernel
  obtain ⟨-, -, -, himports, hprovider⟩ := controller_imports hfile [] (smallProject ".") smallTree
  refine ⟨by decide +kernel, hfile, ?_⟩
  exact (himports.mpr ⟨"pet", 0, by decide, by decide⟩).trans (hprovider (by decide))

/-- A discovered service whose controller imports another file: its marker stands in the middle, or it
has the marker of another filter. -/
theorem exists_foreign_import :
    ∃ petV2 petSvc : ServiceFile,
      ({} : ServiceFilter).accepts "pet.service.v2.ts" = true ∧
      ServiceFile.ofPath? "pet.service.v2.ts" = some petV2 ∧
      petV2.logicalName = "pet.service.v2".toList ∧
      (serviceImport petV2).path = "../services/pet.v2.service".toList ∧
      (providerImport petV2).path = "./services/pet.service.v2".toList ∧
      ({ marker := ".svc", exclude := [] } : ServiceFilter).accepts "pet.svc.ts" = true ∧
      ServiceFile.ofPath? "pet.svc.ts" = some petSvc ∧
      petSvc.logicalName = "pet.svc".toList ∧
      (serviceImport petSvc).path = "../services/pet.svc.service".toList ∧
      (providerImport petSvc).path = "./services/pet.svc".toList := by
  refine ⟨⟨"pet.service.v2.ts", "pet.service.v2"⟩, ⟨"pet.svc.ts", "pet.svc"⟩, ?_⟩
  decide +kernel

end Project

end ServiceScaffold
