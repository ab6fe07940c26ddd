import ServiceScaffold.Proofs.Controller.Batch
import ServiceScaffold.Proofs.Service.Listing

/-! # Batches over discovered files

Discovery accepts a name by its ending and by what stands anywhere in it, a batch by what stands before
the ending. The two agree on every name but the bare ending, which a filter may accept and no batch does.
-/

namespace ServiceScaffold

namespace ServiceFile

variable {name : Text}

/-- An ordinary name with the ending of a source file, and with something before it, is a service file's. -/
theorem exists_ofPath? (hname : Path.IsSegment name) (hsuffix : sourceSuffix <:+ name)
    (hne : name ≠ sourceSuffix) :
    ∃ file, ofPath? name = some file ∧ file.fileName = name ∧
      file.logicalName ++ sourceSuffix = name := by
  obtain ⟨logicalName, rfl⟩ := hsuffix
  refine ⟨⟨logicalName ++ sourceSuffix, logicalName⟩, ?_, rfl, rfl⟩
  refine ofPath?_eq_some_iff.mpr ⟨rfl, hname.fileName?_eq, ?_⟩
  rintro rfl
  exact hne rfl

theorem ofPath?_sourceSuffix : ofPath? sourceSuffix = none := by decide

end ServiceFile

namespace Controller

variable {serviceDir controllerDir : Path} {name path : Path} {names : List Path}
variable {world after : World} {tree last : FileTree} {steps : List (ServiceFile × Text)}

/-! ## Refused names -/

/-- A batch comes to a refused name exactly if it comes through all the names before it. -/
theorem generateBatch_unsupported_iff :
    (∃ after, generateBatch serviceDir controllerDir names world =
        .error (.unsupportedName path) after) ↔
      ServiceFile.ofPath? path = none ∧ ∃ earlier later targets middle,
        names = earlier ++ path :: later ∧
          generateEach serviceDir controllerDir earlier world = .ok targets middle := by
  simp only [generateBatch_eq_error_iff]
  constructor
  · rintro ⟨after, hfail⟩
    obtain ⟨k, hk, targets, middle, hearlier, hname⟩ := generateEach_error hfail
    obtain ⟨hparsed, rfl, rfl⟩ := generate_unsupported_iff.mp hname
    refine ⟨hparsed, names.take k, names.drop (k + 1), targets, after, ?_, hearlier⟩
    rw [List.getElem_cons_drop, List.take_append_drop]
  · rintro ⟨hparsed, earlier, later, targets, middle, rfl, hearlier⟩
    have hname : generateEach serviceDir controllerDir (path :: later) middle =
        .error (.unsupportedName path) middle :=
      Run.bind_of_error (generate_unsupported_iff.mpr ⟨hparsed, rfl, rfl⟩) _
    refine ⟨middle, ?_⟩
    rw [generateEach_append]
    exact (Run.bind_of_ok hearlier _).trans (Run.bind_of_error hname _)

/-- All names of a batch that succeeds are service files'. -/
theorem GeneratesEach.ofPath?_ne_none
    (hsteps : GeneratesEach serviceDir controllerDir tree last names steps) :
    ∀ name ∈ names, ServiceFile.ofPath? name ≠ none := by
  induction hsteps with
  | nil => exact fun name hname => absurd hname List.not_mem_nil
  | cons hstep _ ih =>
      rw [List.forall_mem_cons]
      exact ⟨by simp [hstep.parsed], ih⟩

/-! ## Discovered names -/

/-- In a tree of ordinary names every discovered name but the bare ending is a service file's, with that
file name, and it is the logical name with the ending. The bare ending is none; it is discovered if it
is the name of a file and the filter lets it pass. A batch over the discovered names is refused for a name
only if that is the bare ending, and exactly if it comes through all names before it; with the bare ending
among the names it never succeeds. -/
theorem discovered_names (hformed : world.tree.WellFormed)
    (hordinary : ∀ pair ∈ world.tree.entries, ∀ name ∈ pair.1, Path.IsSegment name)
    (filter : ServiceFilter) (serviceDir : Path) :
    ∃ names, filter.discover serviceDir world = .ok names world ∧
      (∀ name ∈ names, name ≠ sourceSuffix → ∃ file, ServiceFile.ofPath? name = some file ∧
        file.fileName = name ∧ file.logicalName ++ sourceSuffix = name) ∧
      ServiceFile.ofPath? sourceSuffix = none ∧
      (sourceSuffix ∈ names ↔
        (∃ location content, world.tree.find serviceDir = .ok (location, .dir) ∧
          world.tree.entry? (location ++ [sourceSuffix]) = some (.file content)) ∧
        filter.marker <:+: sourceSuffix ∧ ∀ part ∈ filter.exclude, ¬ part <:+: sourceSuffix) ∧
      ∀ controllerDir start,
        (∀ path, (∃ after, generateBatch serviceDir controllerDir names start =
            .error (.unsupportedName path) after) ↔
          path = sourceSuffix ∧ ∃ earlier later targets middle,
            names = earlier ++ sourceSuffix :: later ∧
              generateEach serviceDir controllerDir earlier start = .ok targets middle) ∧
        (sourceSuffix ∈ names → ∀ targets after,
          generateBatch serviceDir controllerDir names start ≠ .ok targets after) := by
  obtain ⟨names, hdiscover, hlists⟩ := ServiceFilter.exists_discover hformed filter serviceDir
  have haccepted : ∀ name ∈ names, name ≠ sourceSuffix → ∃ file, ServiceFile.ofPath? name = some file ∧
      file.fileName = name ∧ file.logicalName ++ sourceSuffix = name := by
    intro name hname hne
    obtain ⟨⟨location, content, -, hentry⟩, hsuffix, -⟩ := (hlists.mem_iff name).mp hname
    have hmem := FileTree.mem_entries (by simp) hentry
    exact ServiceFile.exists_ofPath? (hordinary _ hmem name (by simp)) hsuffix hne
  refine ⟨names, hdiscover, haccepted, ServiceFile.ofPath?_sourceSuffix, ?_,
    fun controllerDir start => ⟨fun path => ?_, fun hmem targets after hok => ?_⟩⟩
  · rw [hlists.mem_iff, and_iff_right List.suffix_rfl]
  · rw [generateBatch_unsupported_iff]
    constructor
    · rintro ⟨hparsed, earlier, later, targets, middle, hnames, hearlier⟩
      obtain rfl : path = sourceSuffix := by
        by_contra hne
        obtain ⟨file, hfile, -⟩ := haccepted path (by simp [hnames]) hne
        rw [hparsed] at hfile
        cases hfile
      exact ⟨rfl, earlier, later, targets, middle, hnames, hearlier⟩
    · rintro ⟨rfl, hearlier⟩
      exact ⟨ServiceFile.ofPath?_sourceSuffix, hearlier⟩
  · obtain ⟨middle, heach, -⟩ := generateBatch_eq_ok_iff.mp hok
    obtain ⟨steps, hsteps⟩ := generatesEach_of_ok heach
    exact hsteps.ofPath?_ne_none _ hmem ServiceFile.ofPath?_sourceSuffix

/-- A directory with a file that is called like the ending of source files, and a second one. -/
def bareEnding : FileTree :=
  ⟨[], [(["c"], .dir), (["s"], .dir), (["s", ".ts"], .file (.text "public find()")),
    (["s", "pet.ts"], .file (.text "public list()"))]⟩

theorem discovered_names_bareEnding :
    (World.ofTree bareEnding).tree.WellFormed ∧
      (∀ pair ∈ bareEnding.entries, ∀ name ∈ pair.1, Path.IsSegment name) ∧
      ∃ names, ServiceFilter.discover ⟨"t", ["e"]⟩ "s" (.ofTree bareEnding) =
          .ok names (.ofTree bareEnding) ∧
        sourceSuffix ∈ names ∧ ∀ targets after,
          generateBatch "s" "c" names (.ofTree bareEnding) ≠ .ok targets after := by
  have hformed : (World.ofTree bareEnding).tree.WellFormed := by decide +kernel
  have hordinary : ∀ pair ∈ bareEnding.entries, ∀ name ∈ pair.1, Path.IsSegment name := by
    decide +kernel
  obtain ⟨names, hdiscover, -, -, hbare, hbatch⟩ :=
    discovered_names hformed hordinary ⟨"t", ["e"]⟩ "s"
  have hmem : sourceSuffix ∈ names := by
    refine hbare.mpr ⟨⟨["s"], .text "public find()", ?_, ?_⟩, ?_, ?_⟩
    · decide +kernel
    · decide +kernel
    · decide +kernel
    · decide +kernel
  exact ⟨hformed, hordinary, names, hdiscover, hmem, (hbatch "c" _).2 hmem⟩

/-- A discovered name that is no service file's: the batch over the discovered names is refused, and the
service behind it gets no controller. -/
theorem exists_refused_discovered :
    ∃ names after, ServiceFilter.discover ⟨".ts", []⟩ "s" (.ofTree bareEnding) =
        .ok names (.ofTree bareEnding) ∧
      sourceSuffix ∈ names ∧ ServiceFile.ofPath? sourceSuffix = none ∧
      generateBatch "s" "c" names (.ofTree bareEnding) =
        .error (.unsupportedName sourceSuffix) after ∧ after.tree = bareEnding := by
  have hevaluated : Run.endsIn (fun names _ => names = [".ts".toList, "pet.ts".toList])
      (ServiceFilter.discover ⟨".ts", []⟩ "s" (.ofTree bareEnding)) = true := by
    decide +kernel
  obtain ⟨names, found, hdiscover, hnames⟩ := Run.exists_ok_of_endsIn hevaluated
  obtain ⟨rfl, -⟩ := ServiceFilter.discover_eq_ok hdiscover
  obtain rfl := of_decide_eq_true hnames
  refine ⟨_, .ofTree bareEnding, hdiscover, List.mem_cons_self, ServiceFile.ofPath?_sourceSuffix, ?_, rfl⟩
  rfl

end Controller

end ServiceScaffold
