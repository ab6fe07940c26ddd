import ServiceScaffold.Proofs.Json.ReadBack
import ServiceScaffold.Proofs.Project.SecondRun

/-! # The package of a project

Whatever a project, its service and its version are called, the package that is written for it is one
JSON document, and it is read as the object that it was written from.
-/

namespace ServiceScaffold

open FileTree

namespace Project

open Json

variable {options : ProjectOptions} {world after : World} {file : PlannedFile} {files : List PlannedFile}
variable {force : Bool}

/-- The first of the files that are written one after another stays as it was written. -/
theorem file_of_writePlanned (hplain : world.tree.Plain)
    (hdiffer : ((file :: files).map fun file => world.tree.placeOf file.path).Nodup)
    (hok : writePlanned force (file :: files) world = .ok () after)
    (hnew : force = true ∨ world.tree.entry? (world.tree.placeOf file.path) = none) :
    after.tree.entry? (world.tree.placeOf file.path) = some (.file (.text file.content)) := by
  obtain ⟨written, middle, hwrite, hothers⟩ := Run.bind_eq_ok_iff.mp hok
  have hmiddle := (kept_plain.writeUnlessThere _ _ _).of_ok hwrite hplain
  have hplaceOf := placeOf_congr (Run.workingDir_of_writeUnlessThere hplain hwrite)
  have hfirst := (List.nodup_cons.mp hdiffer).1
  obtain rfl := Run.written_of_writeUnlessThere hplain hwrite hnew
  have hfile := Run.file_of_writeUnlessThere hplain hwrite
  have hspared : (writePlanned force files).Keeps
      (Confined (.spares (· = world.tree.placeOf file.path)) middle.tree) := by
    refine keeps_writePlanned fun other hother => Run.spares_writeUnlessThere (fun heq => hfirst ?_) _ _
    exact List.mem_map.mpr ⟨other, hother, (hplaceOf _).symm.trans heq⟩
  rcases (hspared.of_ok hothers (.refl hmiddle)).entries (world.tree.placeOf file.path) with hsame | hspares
  · rw [hsame, hfile]
  · rw [hspares rfl (by simp [hfile]), hfile]

/-! ## Documents without numbers -/

@[simp] theorem shallow_text (depth : Nat) (text : Text) : Shallow depth (.text text) := .text depth text

@[simp] theorem shallow_textField (depth : Nat) (name value : String) :
    Shallow depth (textField name value).2 := .text depth _

@[simp] theorem shallow_onField (depth : Nat) (name : String) : Shallow depth (onField name).2 :=
  .bool depth true

/-- The package holds its scripts and its dependencies one level down. -/
theorem shallow_package (depth : Nat) (name version : Text) :
    Shallow (depth + 2) (package name version) := by
  have hscripts : Shallow (depth + 1) scripts := shallow_ofFields (by simp)
  have hdependencies : Shallow (depth + 1) dependencies := shallow_ofFields (by simp)
  have hdevDependencies : Shallow (depth + 1) devDependencies := shallow_ofFields (by simp)
  exact shallow_ofFields (by simp [hscripts, hdependencies, hdevDependencies])

theorem shallow_settings {value : Json}
    (hvalue : value ∈ [compilerSettings, toolSettings, formatterSettings, linterSettings]) (depth : Nat) :
    Shallow (depth + 2) value := by
  simp only [List.mem_cons, List.not_mem_nil, or_false] at hvalue
  rcases hvalue with rfl | rfl | rfl | rfl
  · exact shallow_ofFields (by simp [shallow_ofFields])
  · exact shallow_ofFields (by simp)
  · exact shallow_ofFields (by simp)
  · exact shallow_ofFields (by simp [shallow_ofFields, Shallow.array])

/-- Every document that configures a tool is read as what it was written from. -/
theorem read?_settings {value : Json}
    (hvalue : value ∈ [compilerSettings, toolSettings, formatterSettings, linterSettings]) :
    read? (document value) = some value :=
  (shallow_settings hvalue 125).read?_document

/-! ## The package -/

/-- The fields of the package, in the order of their names. -/
theorem package_eq (name version : Text) :
    package name version = .object [
      ("dependencies", dependencies),
      ("devDependencies", devDependencies),
      ("name", .text name),
      ("private", .bool true),
      ("scripts", scripts),
      ("version", .text version)] := rfl

/-- The object's brace is the last character before the line end. -/
theorem getLast?_written_object (level : Nat) (fields : List (Text × Json)) :
    (written level (.object fields)).getLast? = some '\x7d' := by
  cases fields with
  | nil => rfl
  | cons field fields => exact List.getLast?_concat

/-- Whatever the names and the version are, the text planned for the package is one JSON document and a
line end. With the line end or without it, it is read as the object that the package was built as, and
this holds the project's name and the version as they are. In a tree without links staging puts the text
at the place of the package if files are written over, or if nothing was there. -/
theorem package_readsBack (options : ProjectOptions) :
    ∃ (body : Text) (fields : List (Text × Json)),
      package options.projectName options.version = .object fields ∧
      (fields.map Prod.fst).Pairwise (fun name other => Text.ble name other = true ∧ name ≠ other) ∧
      fields.lookup ("name" : Text) = some (.text (options.application ++ "-" ++ options.service)) ∧
      fields.lookup ("version" : Text) = some (.text options.version) ∧
      (∀ text, ⟨Path.join options.root "package.json", text⟩ ∈ plannedFiles options options.root ↔
        text = body ++ "\n") ∧
      body.getLast? = some '\x7d' ∧
      read? body = some (.object fields) ∧ read? (body ++ "\n") = some (.object fields) ∧
      ∀ world after, world.tree.Plain → stage options options.root world = .ok () after →
        (options.force = true ∨
          world.tree.entry? (world.tree.placeOf (Path.join options.root "package.json")) = none) →
        after.tree.entry? (world.tree.placeOf (Path.join options.root "package.json")) =
          some (.file (.text (body ++ "\n"))) := by
  have hshallow := shallow_package 125 options.projectName options.version
  refine ⟨written 0 (package options.projectName options.version), _, package_eq _ _, ?_, rfl, rfl,
    fun text => ?_, getLast?_written_object _ _, ?_, hshallow.read?_document, ?_⟩
  · simp only [List.map_cons, List.map_nil]
    decide
  · have hfirst : (⟨Path.join options.root "package.json", document (package options.projectName
        options.version)⟩ : PlannedFile) ∈ plannedFiles options options.root := List.mem_cons_self
    constructor
    · -- no other planned file goes to the same place
      intro hmem
      have hsame := List.inj_on_of_nodup_map (nodup_plannedFiles options ⟨[], []⟩) hmem hfirst rfl
      exact congrArg PlannedFile.content hsame
    · rintro rfl
      exact hfirst
  · have hread : read? (written 0 (package options.projectName options.version) ++ []) = some _ :=
      hshallow.read?_written rfl
    rwa [List.append_nil] at hread
  · intro world after hplain hok hnew
    exact file_of_writePlanned hplain (nodup_plannedFiles options world.tree) hok hnew

/-- A project whose names and version are full of what has to be escaped. -/
def quotedProject : ProjectOptions where
  application := "a\"\\"
  service := "s\n"
  version := "\x01é"

theorem package_readsBack_quotedProject :
    ∃ after text fields, stage quotedProject quotedProject.root (.ofTree .empty) = .ok () after ∧
      after.tree.entry? ["a\"\\-s\n", "package.json"] = some (.file (.text text)) ∧
      read? text = some (.object fields) ∧
      fields.lookup ("name" : Text) = some (.text "a\"\\-s\n") ∧
      fields.lookup ("version" : Text) = some (.text "\x01é") := by
  have hok : Run.isOk (stage quotedProject quotedProject.root (.ofTree .empty)) = true := by
    decide +kernel
  obtain ⟨⟨⟩, after, hok⟩ := Run.exists_ok_of_isOk hok
  obtain ⟨body, fields, -, -, hname, hversion, -, -, -, hread, hfile⟩ := package_readsBack quotedProject
  have hplain : (World.ofTree .empty).tree.Plain := by decide
  exact ⟨after, _, fields, hok, hfile _ _ hplain hok (Or.inr rfl), hread, hname, hversion⟩

end Project

end ServiceScaffold
