import ServiceScaffold.Proofs.Project.Reported
import ServiceScaffold.Proofs.Text.Lexicon

/-! # The service's name in the sources

A service is accepted if its name is one segment of a path. The name goes into the sources as it is: its
capital form begins the names of classes, and the name itself stands in literals. So these are what they
should be exactly if the name's characters let them be.
-/

namespace ServiceScaffold

/-! ## Capital forms -/

namespace Lexicon

variable {lexicon : Lexicon} {text : Text} {c : Char}

/-- A character and its upper case begin a name alike. -/
theorem start_toUpper (hc : c.toNat < 128) :
    c.toUpper.toNat < 128 ∧ ascii.start c.toUpper = ascii.start c := by
  have hupper : ∀ code < 128, (Char.ofNat code).toUpper.toNat < 128 ∧
      ascii.start (Char.ofNat code).toUpper = ascii.start (Char.ofNat code) := by decide +kernel
  simpa only [Char.ofNat_toNat] using hupper c.toNat hc

theorem spells_capitalize_iff (htext : ∀ c ∈ text, c.toNat < 128) :
    lexicon.Spells (Text.capitalize text) ↔ ascii.Spells text := by
  cases text with
  | nil => exact iff_of_false (fun hspells => hspells.ne_nil rfl) fun hspells => hspells.ne_nil rfl
  | cons c rest =>
      obtain ⟨hc, hrest⟩ := List.forall_mem_cons.mp htext
      obtain ⟨hupper, hstart⟩ := start_toUpper hc
      have hcapital : Text.capitalize (c :: rest) = c.toUpper :: rest := by
        rw [Text.capitalize, Text.upperChar, if_pos hc, List.singleton_append]
      rw [hcapital, spells_iff_ascii (List.forall_mem_cons.mpr ⟨hupper, hrest⟩)]
      constructor
      · rintro ⟨_, _, ⟨⟩, hfirst, hparts⟩
        exact ⟨c, rest, rfl, hstart ▸ hfirst, hparts⟩
      · rintro ⟨_, _, ⟨⟩, hfirst, hparts⟩
        exact ⟨c.toUpper, rest, rfl, hstart ▸ hfirst, hparts⟩

end Lexicon

namespace Project

variable {options : ProjectOptions} {lexicon : Lexicon} {service serviceClass name literal : Text}
variable {pieces : List Piece} {c : Char}

/-! ## Sources as parts

The fixed texts are cut as the sources cut them, and only at names and quotes once more, so that both sides
are the same constants and none of them has to be spelled out.
-/

/-- The parts of the root module. -/
def appPieces (service serviceClass : Text) : List Piece := [
  .code ("import \x7b Module \x7d from '@nestjs/common';" ++ "\n" ++ "import \x7b "),
  .name (serviceClass ++ "Module"),
  .code " \x7d from ",
  .literal ("./modules/" ++ service ++ "/" ++ service ++ ".module"),
  .code (";" ++ "\n" ++ "" ++ "\n" ++ "@Module(\x7b" ++ "\n" ++ "  imports: ["),
  .name (serviceClass ++ "Module"),
  .code ("]," ++ "\n" ++ "\x7d)" ++ "\n" ++ "export class AppModule \x7b\x7d" ++ "\n")]

/-- The parts of the module of a service with a controller to start with. -/
def starterModulePieces (service serviceClass : Text) : List Piece := [
  .code ("import \x7b Module \x7d from '@nestjs/common';\n" ++ "import \x7b "),
  .name (serviceClass ++ "Controller"),
  .code " \x7d from ",
  .literal ("./controllers/" ++ service ++ ".controller"),
  .code (";\n" ++ "" ++ "\n" ++ "@Module(\x7b" ++ "\n" ++ "  controllers: ["),
  .name (serviceClass ++ "Controller"),
  .code ("]," ++ "\n" ++ "  providers: [" ++ "]," ++ "\n" ++ "\x7d)" ++ "\n" ++ "export class "),
  .name (serviceClass ++ "Module"),
  .code (" \x7b\x7d" ++ "\n")]

/-- The parts of the controller to start with, up to what stands behind its service. -/
def starterPieces (service serviceClass rest : Text) : List Piece := [
  .code ("import \x7b Controller, Get, Post, Put, Delete, Body, Param, Query \x7d from '@nestjs/common';"
    ++ "\n" ++ "" ++ "\n" ++ "@Controller("),
  .literal service,
  .code (")" ++ "\n" ++ "export class "),
  .name (serviceClass ++ "Controller"),
  .code (" \x7b" ++ "\n" ++ "  @Get()" ++ "\n" ++ "  findAll(@Query() query: any) \x7b" ++ "\n"
    ++ "    return \x7b message: 'Implement logic here', service: "),
  .literal service,
  .code rest]

/-- The parts of the module of a service, whatever it lists. -/
def modulePieces (serviceClass front : Text) : List Piece :=
  [.code front, .name (serviceClass ++ "Module"), .code (" \x7b\x7d" ++ "\n")]

theorem appModule_eq (service serviceClass : Text) :
    appModule service serviceClass = Piece.source (appPieces service serviceClass) := by
  have himport : ("Module \x7d from './modules/" : Text) =
      "Module" ++ " \x7d from " ++ "'" ++ "./modules/" := rfl
  have hfile : (".module';" : Text) = ".module" ++ "'" ++ ";" := rfl
  have hlist : ("Module]," : Text) = "Module" ++ "]," := rfl
  simp only [appModule, Text.ofLines, appPieces, Piece.source, Piece.text, List.flatMap_cons,
    List.flatMap_nil, List.append_assoc, himport, hfile, hlist]

theorem starterModule_eq (service serviceClass : Text) :
    serviceModule serviceClass
        [⟨serviceClass ++ "Controller", "./controllers/" ++ service ++ ".controller"⟩] [] =
      Piece.source (starterModulePieces service serviceClass) := by
  have hstatement (item : ModuleImport) : item.statement = "import \x7b " ++ item.className
      ++ " \x7d from " ++ ("'" ++ item.path ++ "'") ++ ";\n" := by
    have hpath : (" \x7d from '" : Text) = " \x7d from " ++ "'" := rfl
    have hend : ("';\n" : Text) = "'" ++ ";\n" := rfl
    unfold ModuleImport.statement
    rw [hpath, hend]
    simp only [List.append_assoc]
  have hclass : ("Module \x7b\x7d" : Text) = "Module" ++ " \x7b\x7d" := rfl
  have hnone : ModuleImport.classList [] = [] := rfl
  have hone (item : ModuleImport) : ModuleImport.classList [item] = item.className := by
    simp [ModuleImport.classList]
  unfold serviceModule Text.ofLines Piece.source starterModulePieces
  simp only [hstatement, hclass, hnone, hone, Piece.text, List.flatMap_cons, List.flatMap_nil,
    List.append_assoc, List.append_nil]

/-- What stands in front of the class in the module of a service does not depend on its name. -/
theorem exists_moduleFront (controllers providers : List ModuleImport) : ∃ front, ∀ serviceClass,
    serviceModule serviceClass controllers providers =
      Piece.source (modulePieces serviceClass front) := by
  have hclass : ("Module \x7b\x7d" : Text) = "Module" ++ " \x7b\x7d" := rfl
  refine ⟨"import \x7b Module \x7d from '@nestjs/common';\n"
    ++ (controllers ++ providers).flatMap ModuleImport.statement ++ Text.ofLines [
      "",
      "@Module(\x7b",
      "  controllers: [" ++ ModuleImport.classList controllers ++ "],",
      "  providers: [" ++ ModuleImport.classList providers ++ "],",
      "\x7d)"] ++ "export class ", fun serviceClass => ?_⟩
  unfold serviceModule Text.ofLines Piece.source modulePieces
  simp only [Piece.text, List.flatMap_cons, List.flatMap_nil, List.append_assoc, List.append_nil, hclass]

/-- What stands behind the service in the controller to start with is the same in every project. -/
theorem exists_starterRest : ∃ rest, ∀ service serviceClass,
    starterController service (serviceClass ++ "Controller") service =
      Piece.source (starterPieces service serviceClass rest) := by
  have hprefix : ("@Controller('" : Text) = "@Controller(" ++ "'" := rfl
  have hend : ("')" : Text) = "'" ++ ")" := rfl
  have hservice : ("    return \x7b message: 'Implement logic here', service: '" : Text) =
      "    return \x7b message: 'Implement logic here', service: " ++ "'" := rfl
  have hclose : ("' \x7d;" : Text) = "'" ++ " \x7d;" := rfl
  apply Exists.intro
  intro service serviceClass
  unfold starterController Text.ofLines Piece.source starterPieces
  simp only [Piece.text, List.flatMap_cons, List.flatMap_nil, List.append_assoc, List.append_nil,
    hprefix, hend, hservice, hclose]
  rfl

/-! ## Names of classes -/

/-- The names of the classes that are called after a service. -/
def classNames (serviceClass : Text) : List Text :=
  [serviceClass ++ "Module", serviceClass ++ "Controller"]

/-- The names of classes go on with characters of names. -/
theorem spells_className_iff (hclass : serviceClass ≠ []) (hname : name ∈ classNames serviceClass) :
    lexicon.Spells name ↔ lexicon.Spells serviceClass := by
  have hendings : ∀ ending ∈ (["Module", "Controller"] : List Text),
      (ending.all fun c => c.toNat < 128 && Lexicon.ascii.part c) = true := by decide +kernel
  obtain ⟨ending, hending, rfl⟩ : ∃ ending ∈ (["Module", "Controller"] : List Text),
      name = serviceClass ++ ending := by
    simpa [classNames] using hname
  refine Lexicon.spells_append_iff hclass fun c hc => ?_
  have hchar := List.all_eq_true.mp (hendings ending hending) c hc
  rw [Bool.and_eq_true, decide_eq_true_eq] at hchar
  obtain ⟨hascii, hpart⟩ := hchar
  rwa [Lexicon.part_eq_ascii hascii]

/-- No reserved word ends as the names of classes do. -/
theorem notReserved_of_mem_classNames (hname : name ∈ classNames serviceClass) :
    name ∉ Lexicon.reservedWords := by
  have hwords : ∀ word ∈ Lexicon.reservedWords,
      ¬ ("Module" : Text) <:+ word ∧ ¬ ("Controller" : Text) <:+ word := by decide +kernel
  intro hword
  simp only [classNames, List.mem_cons, List.not_mem_nil, or_false] at hname
  rcases hname with rfl | rfl
  · exact (hwords _ hword).1 (List.suffix_append _ _)
  · exact (hwords _ hword).2 (List.suffix_append _ _)

theorem identifier_iff (hclass : serviceClass ≠ []) (hname : name ∈ classNames serviceClass) :
    lexicon.Identifier name ↔ lexicon.Spells serviceClass :=
  ⟨fun hidentifier => (spells_className_iff hclass hname).mp hidentifier.spells, fun hspells =>
    ⟨(spells_className_iff hclass hname).mpr hspells, notReserved_of_mem_classNames hname⟩⟩

/-! ## Literals -/

/-- The literals that a service's name goes into. -/
def serviceLiterals (service : Text) : List Text := [
  service,
  "./modules/" ++ service ++ "/" ++ service ++ ".module",
  "./controllers/" ++ service ++ ".controller"]

theorem mem_serviceLiteral_iff (hliteral : literal ∈ serviceLiterals service)
    (hc : Lexicon.isPlain c = false) : c ∈ literal ↔ c ∈ service := by
  have hfixed : ∀ text ∈ (["./modules/", "/", ".module", "./controllers/", ".controller"] : List Text),
      text.all Lexicon.isPlain = true := by decide +kernel
  have hnot (text : Text) (htext : text.all Lexicon.isPlain = true) : c ∉ text := by
    intro hmem
    rw [List.all_eq_true.mp htext c hmem] at hc
    cases hc
  simp only [List.forall_mem_cons] at hfixed
  obtain ⟨hmodules, hslash, hmodule, hcontrollers, hcontroller, -⟩ := hfixed
  simp only [serviceLiterals, List.mem_cons, List.not_mem_nil, or_false] at hliteral
  rcases hliteral with rfl | rfl | rfl
  · rfl
  · simp only [List.mem_append, hnot _ hmodules, hnot _ hslash, hnot _ hmodule, false_or, or_false, or_self]
  · simp only [List.mem_append, hnot _ hcontrollers, hnot _ hcontroller, false_or, or_false]

/-! ## Sources -/

/-- What the name of a service makes of a source that it goes into. -/
structure Carries (lexicon : Lexicon) (service serviceClass : Text) (pieces : List Piece) : Prop where
  names : ∀ name ∈ Piece.names pieces, name ∈ classNames serviceClass
  /-- No literal has an escape. -/
  unescaped : ∀ literal ∈ Piece.literals pieces, '\\' ∉ literal
  /-- A literal is ended by what stands in the name, and by nothing else. -/
  ends_iff : ∀ literal ∈ Piece.literals pieces, ∀ c, lexicon.Ends c → (c ∈ literal ↔ c ∈ service)
  reads_iff : lexicon.Reads pieces ↔
    lexicon.Spells serviceClass ∧ ∀ c ∈ service, ¬ lexicon.Ends c

theorem part_of_source_code {text : Text}
    (htext : (text.head?.any fun c => c.toNat < 128 && !Lexicon.ascii.part c) = true) :
    ∀ c ∈ (Piece.source (.code text :: pieces)).head?, lexicon.part c = false := by
  intro c hc
  cases text with
  | nil => cases htext
  | cons first text =>
      obtain rfl : first = c := Option.some.inj hc
      rw [List.head?_cons, Option.any_some, Bool.and_eq_true, decide_eq_true_eq, Bool.not_eq_true'] at htext
      obtain ⟨hascii, hpart⟩ := htext
      rwa [Lexicon.part_eq_ascii hascii]

/-- A source whose names and literals are made of the name of a service carries it. -/
theorem carries (hescape : '\\' ∉ service) (hclass : serviceClass ≠ [])
    (hnames : ∀ name ∈ Piece.names pieces, name ∈ classNames serviceClass)
    (hliterals : ∀ literal ∈ Piece.literals pieces, literal ∈ serviceLiterals service)
    (hsomeName : Piece.names pieces ≠ []) (hsomeLiteral : Piece.literals pieces ≠ [])
    (hseparated : lexicon.Separated pieces) : Carries lexicon service serviceClass pieces := by
  have hunescaped (literal) (hliteral : literal ∈ Piece.literals pieces) : '\\' ∉ literal :=
    mt (mem_serviceLiteral_iff (hliterals literal hliteral) rfl).mp hescape
  have hends (literal) (hliteral : literal ∈ Piece.literals pieces) (c) (hstops : lexicon.Ends c) :
      c ∈ literal ↔ c ∈ service :=
    mem_serviceLiteral_iff (hliterals literal hliteral) (Lexicon.isPlain_of_ends hstops)
  refine ⟨hnames, hunescaped, hends, (Lexicon.reads_iff hseparated hunescaped).trans (and_congr ?_ ?_)⟩
  · -- all names go on alike, so that each of them is spelled as a name if one is
    obtain ⟨first, hfirst⟩ := List.exists_mem_of_ne_nil _ hsomeName
    exact ⟨fun hspells => (spells_className_iff hclass (hnames first hfirst)).mp (hspells first hfirst),
      fun hspells name hname => (spells_className_iff hclass (hnames name hname)).mpr hspells⟩
  · obtain ⟨first, hfirst⟩ := List.exists_mem_of_ne_nil _ hsomeLiteral
    exact ⟨fun hclosed c hmem hstops =>
        hclosed first hfirst c ((hends first hfirst c hstops).mpr hmem) hstops,
      fun hclosed literal hliteral c hmem hstops =>
        hclosed c ((hends literal hliteral c hstops).mp hmem) hstops⟩

theorem carries_app (hescape : '\\' ∉ service) (hclass : serviceClass ≠ []) :
    Carries lexicon service serviceClass (appPieces service serviceClass) := by
  have hnames : Piece.names (appPieces service serviceClass) =
    [serviceClass ++ "Module", serviceClass ++ "Module"] := rfl
  have hliterals : Piece.literals (appPieces service serviceClass) =
    ["./modules/" ++ service ++ "/" ++ service ++ ".module"] := rfl
  refine carries hescape hclass ?_ ?_ (List.cons_ne_nil _ _) (List.cons_ne_nil _ _) ?_
  · simp [hnames, classNames]
  · simp [hliterals, serviceLiterals]
  · exact ⟨part_of_source_code rfl, part_of_source_code rfl, trivial⟩

theorem carries_starterModule (hescape : '\\' ∉ service) (hclass : serviceClass ≠ []) :
    Carries lexicon service serviceClass (starterModulePieces service serviceClass) := by
  have hnames : Piece.names (starterModulePieces service serviceClass) =
    [serviceClass ++ "Controller", serviceClass ++ "Controller", serviceClass ++ "Module"] := rfl
  have hliterals : Piece.literals (starterModulePieces service serviceClass) =
    ["./controllers/" ++ service ++ ".controller"] := rfl
  refine carries hescape hclass ?_ ?_ (List.cons_ne_nil _ _) (List.cons_ne_nil _ _) ?_
  · simp [hnames, classNames]
  · simp [hliterals, serviceLiterals]
  · exact ⟨part_of_source_code rfl, part_of_source_code rfl, part_of_source_code rfl, trivial⟩

theorem carries_starter (hescape : '\\' ∉ service) (hclass : serviceClass ≠ []) (rest : Text) :
    Carries lexicon service serviceClass (starterPieces service serviceClass rest) := by
  have hnames : Piece.names (starterPieces service serviceClass rest) =
    [serviceClass ++ "Controller"] := rfl
  have hliterals : Piece.literals (starterPieces service serviceClass rest) = [service, service] := rfl
  refine carries hescape hclass ?_ ?_ (List.cons_ne_nil _ _) (List.cons_ne_nil _ _) ?_
  · simp [hnames, classNames]
  · simp [hliterals, serviceLiterals]
  · exact ⟨part_of_source_code rfl, trivial⟩

/-- Only the name of its class stands in the module of a service, whatever it lists. -/
theorem reads_modulePieces_iff (hclass : serviceClass ≠ []) (front : Text) :
    lexicon.Reads (modulePieces serviceClass front) ↔ lexicon.Spells serviceClass := by
  have hnames : Piece.names (modulePieces serviceClass front) = [serviceClass ++ "Module"] := rfl
  have hliterals : Piece.literals (modulePieces serviceClass front) = [] := rfl
  have hseparated : lexicon.Separated (modulePieces serviceClass front) :=
    ⟨part_of_source_code rfl, trivial⟩
  rw [Lexicon.reads_iff hseparated (by simp [hliterals]), hnames, hliterals, List.forall_mem_singleton,
    spells_className_iff hclass List.mem_cons_self]
  simp

/-! ## Accepted services -/

theorem escape_notMem_service (hfault : options.fault? = none) : '\\' ∉ options.service := by
  have hservice := (Option.or_eq_none_iff.mp hfault).2
  unfold ProjectOptions.nameFault? at hservice
  split at hservice
  · cases hservice
  · split at hservice
    · cases hservice
    next hsegment =>
      simp only [ProjectOptions.notOneSegment, Bool.not_eq_true, Bool.or_eq_false_iff] at hsegment
      simpa using hsegment.1.1.2

theorem serviceClass_ne_nil (hfault : options.fault? = none) : options.serviceClass ≠ [] := by
  obtain ⟨first, rest, hservice⟩ :=
    List.exists_cons_of_ne_nil (ProjectOptions.isSegment_service hfault).ne_nil
  rw [ProjectOptions.serviceClass, hservice]
  exact List.append_ne_nil_of_left_ne_nil (Text.upperChar_ne_nil first) rest

/-- What the name of a service makes of the sources of its project. -/
structure Spelled (lexicon : Lexicon) (options : ProjectOptions) (rest : Text)
    (front : List ModuleImport → List ModuleImport → Text) : Prop where
  identifier_iff : ∀ name ∈ classNames options.serviceClass,
    lexicon.Identifier name ↔ lexicon.Spells options.serviceClass
  ascii_iff : (∀ c ∈ options.service, c.toNat < 128) →
    (lexicon.Spells options.serviceClass ↔ Lexicon.ascii.Spells options.service)
  app : appModule options.service options.serviceClass =
    Piece.source (appPieces options.service options.serviceClass)
  carries_app : Carries lexicon options.service options.serviceClass
    (appPieces options.service options.serviceClass)
  starter : starterText options =
    Piece.source (starterPieces options.service options.serviceClass rest)
  carries_starter : Carries lexicon options.service options.serviceClass
    (starterPieces options.service options.serviceClass rest)
  starterModule : serviceModule options.serviceClass (starterContents options).controllers
      (starterContents options).providers =
    Piece.source (starterModulePieces options.service options.serviceClass)
  carries_starterModule : Carries lexicon options.service options.serviceClass
    (starterModulePieces options.service options.serviceClass)
  anyModule : ∀ controllers providers, serviceModule options.serviceClass controllers providers =
    Piece.source (modulePieces options.serviceClass (front controllers providers))
  reads_anyModule_iff : ∀ controllers providers,
    lexicon.Reads (modulePieces options.serviceClass (front controllers providers)) ↔
      lexicon.Spells options.serviceClass

/-- The names of the classes of an accepted service are identifiers exactly if its capital form is spelled
as a name, which in ASCII is up to letters, digits, `_` and `$`. And no literal has an escape, and a literal
is ended before its closing quote exactly if something in the name of the service ends it. -/
theorem spelled_of_accepted : ∃ rest front, ∀ lexicon options, ProjectOptions.fault? options = none →
    Spelled lexicon options rest front := by
  obtain ⟨rest, hstarter⟩ := exists_starterRest
  choose front hfront using exists_moduleFront
  refine ⟨rest, front, fun lexicon options hfault => ?_⟩
  have hescape := escape_notMem_service hfault
  have hclass := serviceClass_ne_nil hfault
  exact {
    identifier_iff := fun name hname => identifier_iff hclass hname
    ascii_iff := fun hascii => Lexicon.spells_capitalize_iff hascii
    app := appModule_eq options.service options.serviceClass
    carries_app := carries_app hescape hclass
    starter := hstarter options.service options.serviceClass
    carries_starter := carries_starter hescape hclass rest
    starterModule := starterModule_eq options.service options.serviceClass
    carries_starterModule := carries_starterModule hescape hclass
    anyModule := fun controllers providers => hfront controllers providers options.serviceClass
    reads_anyModule_iff := fun controllers providers =>
      reads_modulePieces_iff hclass (front controllers providers) }

/-- The options of a project whose service has this name. -/
def projectOf (service : Text) : ProjectOptions where
  application := "a"
  service := service

theorem spelled_of_accepted_order :
    (projectOf "order").fault? = none ∧ ∃ rest front, ∀ lexicon,
      Spelled lexicon (projectOf "order") rest front ∧
      lexicon.Identifier "OrderModule" ∧ lexicon.Identifier "OrderController" ∧
      lexicon.Reads (appPieces "order" "Order") ∧ lexicon.Reads (starterPieces "order" "Order" rest) ∧
      lexicon.Reads (starterModulePieces "order" "Order") := by
  have hfault : (projectOf "order").fault? = none := by decide +kernel
  have hall : (("order" : Text).all fun c => c.toNat < 128) = true := by decide +kernel
  have hascii : ∀ c ∈ ("order" : Text), c.toNat < 128 := fun c hc =>
    of_decide_eq_true (List.all_eq_true.mp hall c hc)
  obtain ⟨rest, front, hspelled⟩ := spelled_of_accepted
  refine ⟨hfault, rest, front, fun lexicon => ?_⟩
  have hnames := hspelled lexicon (projectOf "order") hfault
  have hclass : lexicon.Spells "Order" :=
    (hnames.ascii_iff hascii).mpr ⟨'o', "rder".toList, rfl, rfl, List.all_eq_true.mp (by decide +kernel)⟩
  have hcloses : ∀ c ∈ ("order" : Text), ¬ lexicon.Ends c :=
    Lexicon.not_ends_of_isPlain (by decide +kernel)
  exact ⟨hnames,
    (hnames.identifier_iff "OrderModule" (by decide +kernel)).mpr hclass,
    (hnames.identifier_iff "OrderController" (by decide +kernel)).mpr hclass,
    hnames.carries_app.reads_iff.mpr ⟨hclass, hcloses⟩,
    hnames.carries_starter.reads_iff.mpr ⟨hclass, hcloses⟩,
    hnames.carries_starterModule.reads_iff.mpr ⟨hclass, hcloses⟩⟩

/-- A name with a hyphen is accepted, though nothing that begins so is an identifier. And names with a quote
or a line break are accepted, though they end the literals that they stand in. -/
theorem exists_malformed :
    ((projectOf "order-item").fault? = none ∧ ∀ lexicon : Lexicon,
      ∀ name ∈ classNames (projectOf "order-item").serviceClass, ¬ lexicon.Identifier name) ∧
    ∀ service ∈ (["a'b", "a\nb"] : List Text), (projectOf service).fault? = none ∧
      ∀ lexicon : Lexicon,
        (∀ literal ∈ Piece.literals (appPieces service (projectOf service).serviceClass),
          ∃ c ∈ literal, lexicon.Ends c) ∧
        ¬ lexicon.Reads (appPieces service (projectOf service).serviceClass) := by
  refine ⟨⟨by decide +kernel, fun lexicon name hname hidentifier => ?_⟩, fun service hservice => ?_⟩
  · have hspells := (identifier_iff (by decide +kernel) hname).mp hidentifier
    have hall : (("order-item" : Text).all fun c => c.toNat < 128) = true := by decide +kernel
    have hascii : ∀ c ∈ ("order-item" : Text), c.toNat < 128 := fun c hc =>
      of_decide_eq_true (List.all_eq_true.mp hall c hc)
    obtain ⟨first, rest, heq, -, hrest⟩ := (Lexicon.spells_capitalize_iff hascii).mp hspells
    have hhyphen : '-' ∈ rest := (List.cons.inj heq).2 ▸ (by decide +kernel)
    cases hrest _ hhyphen
  · have hchecked : ∀ service ∈ (["a'b", "a\nb"] : List Text), (projectOf service).fault? = none ∧
        (service.any fun c => c = '\'' || c = '\n') = true := by decide +kernel
    obtain ⟨hfault, hany⟩ := hchecked service hservice
    obtain ⟨c, hc, hmark⟩ := List.any_eq_true.mp hany
    rw [Bool.or_eq_true, decide_eq_true_eq, decide_eq_true_eq] at hmark
    refine ⟨hfault, fun lexicon => ?_⟩
    have hends : lexicon.Ends c := hmark.imp_right fun hline => by
      rw [hline, lexicon.breaksLine_ascii '\n' (by decide)]
      rfl
    have hcarries : Carries lexicon service (projectOf service).serviceClass
        (appPieces service (projectOf service).serviceClass) :=
      carries_app (escape_notMem_service hfault) (serviceClass_ne_nil hfault)
    exact ⟨fun literal hliteral => ⟨c, (hcarries.ends_iff literal hliteral c hends).mpr hc, hends⟩,
      fun hreads => (hcarries.reads_iff.mp hreads).2 c hc hends⟩

end Project

end ServiceScaffold
