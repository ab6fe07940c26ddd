import Mathlib.Data.List.Perm.Basic
import ServiceScaffold.CommandLine.Command
import ServiceScaffold.Proofs.CommandLine.Grammar
import ServiceScaffold.Proofs.Fields

/-! # Command lines that are requests

What a user asks for, how it is written on a command line, and that it is read back from there: each option
with its value as it was given, in whatever order the options come, and with the default of each option
that was left out.
-/

namespace ServiceScaffold.CommandLine

open Fields (filled)

variable {name value : Text}

/-! ## Options as they are written -/

/-- What is given of a flag: nothing but that it is there. -/
def flag (on : Bool) : Option Text := if on then some [] else none

theorem isSome_flag (on : Bool) : (flag on).isSome = on := by cases on <;> rfl

theorem eq_nil_of_flag {on : Bool} (hvalue : some value = flag on) : value = [] := by
  cases on with
  | false => cases hvalue
  | true => exact Option.some.inj hvalue

/-- How an option is written: the two flags by a word of their own, every other option with its value. -/
def spelled (option : Text × Text) : Text :=
  if option.1 = "force" then "--force"
  else if option.1 = "verbose" then "-v"
  else valueWord option.1 option.2

/-- Words in another order are the options in another order. -/
theorem exists_order {options : List (Text × Text)} {words : List Text}
    (hwords : words.Perm (options.map spelled)) :
    ∃ order : List (Text × Text), order.Perm options ∧ words = order.map spelled := by
  have hspelled : List.Forall₂ (fun word option => word = spelled option) (options.map spelled) options :=
    List.forall₂_map_left_iff.mpr (List.forall₂_same.mpr fun _ _ => rfl)
  obtain ⟨order, horder, hperm⟩ := List.perm_comp_forall₂ hwords hspelled
  refine ⟨order, hperm, ?_⟩
  rw [← List.forall₂_eq_eq_eq]
  exact List.forall₂_map_right_iff.mpr horder

theorem isAcceptable_path {path : Path} (hne : path ≠ []) : Reading.isAcceptable .path path = true := by
  cases path with
  | nil => exact absurd rfl hne
  | cons c rest => rfl

section Grammar

variable {grammar : Grammar} {rule : OptionRule} {kind : ValueKind}

theorem settles_spelled (hrule : grammar.options.find? (fun rule => rule.name = name) = some rule)
    (hkind : rule.kind = .value kind) (hname : '=' ∉ name) (hforce : name ≠ "force")
    (hverbose : name ≠ "verbose") (hvalue : Reading.isAcceptable kind value = true) :
    Settles grammar (spelled (name, value)) (name, value) := by
  rw [spelled, if_neg hforce, if_neg hverbose]
  exact settles_valueWord hrule hkind hname hvalue

theorem settles_verbose
    (hrule : grammar.options.find? (fun rule => rule.letter = some 'v') = some verboseRule) :
    Settles grammar (spelled ("verbose", [])) ("verbose", []) :=
  settles_letter rfl hrule rfl

/-- Options that may be left out are read as they are written, in whatever order that is: each is found with
its value, or not at all if it was left out, and nothing else is. -/
theorem exists_given {fields : List (Text × Option Text)} {words : List Text}
    (hnodup : (fields.map Prod.fst).Nodup)
    (hsettles : ∀ option ∈ filled fields, Settles grammar (spelled option) option)
    (hwords : words.Perm ((filled fields).map spelled)) :
    ∃ given : List (Text × Text), (∀ field ∈ fields, given.lookup field.1 = field.2) ∧
      ∀ rest, Reading.start.readWords grammar (words ++ rest) =
        (⟨given, [], none⟩ : Reading).readWords grammar rest := by
  obtain ⟨given, hgiven, rfl⟩ := exists_order hwords
  have hfilled : ((filled fields).map Prod.fst).Nodup :=
    hnodup.sublist (Fields.map_fst_filled_sublist fields)
  have hnames : (given.map Prod.fst).Nodup := (hgiven.map Prod.fst).nodup_iff.mpr hfilled
  refine ⟨given, fun field hfield => ?_, fun rest => ?_⟩
  · rw [Fields.lookup_eq_of_perm hgiven hnames, Fields.lookup_filled hnodup hfield]
  · exact readWords_map rfl (fun _ _ => rfl) hnames
      (fun option hmem => hsettles option (hgiven.mem_iff.mp hmem)) rest

end Grammar

/-- A command line is read by its command, once its words are. -/
theorem read_of_readWords {commandName : CommandName} {words : List Text} {reading : Reading}
    {result : Command} (hwords : Reading.start.readWords commandName.grammar words = .ok reading)
    (hcommand : command commandName reading = .ok result) :
    read (commandName.label :: words) = .ok ⟨reading.has "verbose", result⟩ := by
  have hlabel : read (commandName.label :: words) = readCommand false commandName words := by
    cases commandName <;> rfl
  rw [hlabel, readCommand, hwords]
  change (do Except.ok (Invocation.mk (false || reading.has "verbose") (← command commandName reading))) = _
  rw [hcommand]
  rfl

/-! ## New projects -/

/-- What is asked of a new project; what is left out has its default. -/
structure NewRequest where
  application? : Option Text := none
  service? : Option Text := none
  version? : Option Text := none
  document? : Option Text := none
  outputDir? : Option Path := none
  config? : Option Path := none
  force : Bool := false
  verbose : Bool := false

namespace NewRequest

variable {request : NewRequest}

/-- The options of a request. -/
def fields (request : NewRequest) : List (Text × Option Text) :=
  [("application", request.application?), ("service", request.service?), ("version", request.version?),
    ("openapi", request.document?), ("output", request.outputDir?), ("config", request.config?),
    ("force", flag request.force), ("verbose", flag request.verbose)]

/-- The options of a request as they are written. -/
def words (request : NewRequest) : List Text := (filled request.fields).map spelled

/-- The paths in a request are not empty. -/
structure IsProper (request : NewRequest) : Prop where
  outputDir : request.outputDir? ≠ some []
  config : request.config? ≠ some []

/-- The command line that a request asks for. -/
def invocation (request : NewRequest) : Invocation where
  verbose := request.verbose
  command := .new
    { application := request.application?.getD "demo"
      service := request.service?.getD "default"
      version := request.version?.getD "1.0.0"
      document? := request.document?
      outputDir := request.outputDir?.getD "."
      force := request.force }
    request.config?

theorem nodup_fields (request : NewRequest) : (request.fields.map Prod.fst).Nodup := by
  have hnames : request.fields.map Prod.fst =
      ["application", "service", "version", "openapi", "output", "config", "force", "verbose"] := rfl
  rw [hnames]
  decide

theorem settles (hproper : request.IsProper) {option : Text × Text}
    (hmem : option ∈ filled request.fields) :
    Settles CommandName.new.grammar (spelled option) option := by
  obtain ⟨name, value⟩ := option
  have hfield := Fields.mem_filled_iff.mp hmem
  simp only [fields, List.mem_cons, Prod.mk.injEq, List.not_mem_nil, or_false] at hfield
  rcases hfield with ⟨rfl, -⟩ | ⟨rfl, -⟩ | ⟨rfl, -⟩ | ⟨rfl, -⟩ | ⟨rfl, houtput⟩ | ⟨rfl, hconfig⟩ |
    ⟨rfl, hforce⟩ | ⟨rfl, hverbose⟩
  · exact settles_spelled rfl rfl (by decide) (by decide) (by decide) rfl
  · exact settles_spelled rfl rfl (by decide) (by decide) (by decide) rfl
  · exact settles_spelled rfl rfl (by decide) (by decide) (by decide) rfl
  · exact settles_spelled rfl rfl (by decide) (by decide) (by decide) rfl
  · refine settles_spelled rfl rfl (by decide) (by decide) (by decide) (isAcceptable_path ?_)
    rintro rfl
    exact hproper.outputDir houtput.symm
  · refine settles_spelled rfl rfl (by decide) (by decide) (by decide) (isAcceptable_path ?_)
    rintro rfl
    exact hproper.config hconfig.symm
  · rw [eq_nil_of_flag hforce]
    exact settles_long rfl rfl rfl
  · rw [eq_nil_of_flag hverbose]
    exact settles_verbose rfl

/-- The options of a request, in any order, are read back as the request. -/
theorem read_words (hproper : request.IsProper) {words : List Text} (hwords : words.Perm request.words) :
    read (CommandName.new.label :: words) = .ok request.invocation := by
  obtain ⟨given, hgiven, hstart⟩ := exists_given request.nodup_fields (fun _ => settles hproper) hwords
  have hread : Reading.start.readWords CommandName.new.grammar words = .ok ⟨given, [], none⟩ := by
    rw [← List.append_nil words]
    exact hstart []
  simp only [fields, List.forall_mem_cons] at hgiven
  obtain ⟨happlication, hservice, hversion, hdocument, houtput, hconfig, hforce, hverbose, -⟩ := hgiven
  refine (read_of_readWords hread rfl).trans ?_
  simp only [projectOptions, Reading.has, happlication, hservice, hversion, hdocument, houtput, hconfig,
    hforce, hverbose, isSome_flag]
  rfl

end NewRequest

/-! ## Controllers of service files -/

/-- What is asked of the controllers of service files. -/
structure ControllersRequest where
  serviceDir : Path
  controllerDir : Path
  config? : Option Path := none
  verbose : Bool := false
  files : List Text := []

namespace ControllersRequest

variable {request : ControllersRequest}

/-- The options of a request. -/
def fields (request : ControllersRequest) : List (Text × Option Text) :=
  [("services", some request.serviceDir), ("controllers", some request.controllerDir),
    ("config", request.config?), ("verbose", flag request.verbose)]

/-- The options of a request as they are written. -/
def words (request : ControllersRequest) : List Text := (filled request.fields).map spelled

/-- The paths in a request are not empty. -/
structure IsProper (request : ControllersRequest) : Prop where
  serviceDir : request.serviceDir ≠ []
  controllerDir : request.controllerDir ≠ []
  config : request.config? ≠ some []

/-- The command line that a request asks for. -/
def invocation (request : ControllersRequest) : Invocation where
  verbose := request.verbose
  command := .controllers request.serviceDir request.controllerDir request.config? request.files

theorem nodup_fields (request : ControllersRequest) : (request.fields.map Prod.fst).Nodup := by
  have hnames : request.fields.map Prod.fst = ["services", "controllers", "config", "verbose"] := rfl
  rw [hnames]
  decide

theorem settles (hproper : request.IsProper) {option : Text × Text}
    (hmem : option ∈ filled request.fields) :
    Settles CommandName.controllers.grammar (spelled option) option := by
  obtain ⟨name, value⟩ := option
  have hfield := Fields.mem_filled_iff.mp hmem
  simp only [fields, List.mem_cons, Prod.mk.injEq, Option.some.injEq, List.not_mem_nil, or_false] at hfield
  rcases hfield with ⟨rfl, rfl⟩ | ⟨rfl, rfl⟩ | ⟨rfl, hconfig⟩ | ⟨rfl, hverbose⟩
  · exact settles_spelled rfl rfl (by decide) (by decide) (by decide) (isAcceptable_path hproper.serviceDir)
  · exact settles_spelled rfl rfl (by decide) (by decide) (by decide)
      (isAcceptable_path hproper.controllerDir)
  · refine settles_spelled rfl rfl (by decide) (by decide) (by decide) (isAcceptable_path ?_)
    rintro rfl
    exact hproper.config hconfig.symm
  · rw [eq_nil_of_flag hverbose]
    exact settles_verbose rfl

/-- The options of a request, in any order, and its files behind the separator are read back as the
request. -/
theorem read_words (hproper : request.IsProper) {words : List Text} (hwords : words.Perm request.words) :
    read (CommandName.controllers.label :: (words ++ separator :: request.files)) =
      .ok request.invocation := by
  obtain ⟨given, hgiven, hstart⟩ := exists_given request.nodup_fields (fun _ => settles hproper) hwords
  have hread : Reading.start.readWords CommandName.controllers.grammar
      (words ++ separator :: request.files) = .ok ⟨given, request.files, none⟩ :=
    (hstart _).trans (readWords_separator rfl rfl request.files)
  simp only [fields, List.forall_mem_cons] at hgiven
  obtain ⟨hservices, hcontrollers, hconfig, hverbose, -⟩ := hgiven
  have hcommand : command .controllers ⟨given, request.files, none⟩ =
      .ok (.controllers request.serviceDir request.controllerDir request.config? request.files) := by
    simp only [command, required, hservices, hcontrollers, hconfig]
    rfl
  refine (read_of_readWords hread hcommand).trans ?_
  rw [Reading.has, hverbose, isSome_flag]
  rfl

end ControllersRequest

/-! ## Requests are read back -/

/-- What is asked for on a command line is what is read from it, in whatever order its options are written:
every value as it was given, even if it looks like an option itself, the default of every option that was
left out, and the files behind the separator, whatever their names. -/
theorem read_request :
    (∀ (request : NewRequest) (words : List Text), request.IsProper → words.Perm request.words →
      read ("new".toList :: words) = .ok request.invocation) ∧
    ∀ (request : ControllersRequest) (words : List Text), request.IsProper → words.Perm request.words →
      read ("controllers".toList :: (words ++ "--".toList :: request.files)) = .ok request.invocation :=
  ⟨fun _ _ hproper hwords => NewRequest.read_words hproper hwords,
    fun _ _ hproper hwords => ControllersRequest.read_words hproper hwords⟩

/-- A project with a version and an output directory that look like options. -/
def dashedProject : NewRequest where
  version? := some "--force".toList
  outputDir? := some "-v".toList
  force := true

/-- Controllers of files whose names look like options. -/
def dashedFiles : ControllersRequest where
  serviceDir := "a=b"
  controllerDir := "--"
  verbose := true
  files := ["--services=x", "-v", ""]

theorem read_request_dashed :
    dashedProject.IsProper ∧
      read (["new", "--output=-v", "--force", "--version=--force"].map String.toList) =
        .ok ⟨false, .new { version := "--force", outputDir := "-v", force := true } none⟩ ∧
      dashedFiles.IsProper ∧
      read (["controllers", "-v", "--controllers=--", "--services=a=b", "--", "--services=x", "-v", ""].map
          String.toList) =
        .ok ⟨true, .controllers "a=b" "--" none ["--services=x", "-v", ""]⟩ := by
  have hproject : dashedProject.IsProper := ⟨by decide, by decide⟩
  have hfiles : dashedFiles.IsProper := ⟨by decide, by decide, by decide⟩
  exact ⟨hproject, read_request.1 dashedProject _ hproject (by decide),
    hfiles, read_request.2 dashedFiles (["-v", "--controllers=--", "--services=a=b"].map String.toList)
      hfiles (by decide)⟩

end ServiceScaffold.CommandLine
