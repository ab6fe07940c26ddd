import ServiceScaffold.Proofs.Project.Wiring
import ServiceScaffold.Proofs.Run.Copy

/-! # What is imported

A generation that succeeds lays the files in the generator's directory over those of the module. It
takes what stands there when the generator ends, and does not ask whether this run's generator wrote
it. Afterwards the directory is gone, so only a generation that failed after the generator had been
started leaves something behind that a later one imports.
-/

namespace ServiceScaffold

open FileTree

namespace Project

variable {host : Host} {settings : Settings} {options : ProjectOptions} {document : Text}
variable {world after : World} {report : Report} {contents : ModuleContents} {count : Nat}
variable {base before middle last : FileTree} {place : Location} {names front loose : List Text}
variable {source target name : Text}

/-! ## Places -/

/-- The directory that the generator writes into. -/
def generatedDir (options : ProjectOptions) : Path := Path.join options.root generatedDirName

/-- The places below the module's directory that nothing but an import writes to. -/
structure Importable (options : ProjectOptions) (names : List Text) : Prop where
  notController : ¬ ["controllers".toList] <+: names
  notModule : names ≠ [options.service ++ ".module.ts"]

/-- Nothing is written or removed at the place once the import is over. -/
structure Settled (tree : FileTree) (options : ProjectOptions) (place : Location) : Prop where
  notBuild : ¬ tree.placeOf (Path.join options.root "dist") <+: place
  notController : ¬ tree.placeOf options.controllerDir <+: place
  notModule : place ≠ tree.placeOf (modulePath options)

theorem placeOf_generatedDir (options : ProjectOptions) (tree : FileTree) :
    tree.placeOf (generatedDir options) = tree.placeOf options.root ++ [generatedDirName] :=
  placeOf_join (by decide) _ _

theorem head?_of_front {α : Type} {first : α} {items : List α} (hfront : [first] <+: items) :
    items.head? = some first := by
  obtain ⟨rest, rfl⟩ := hfront
  rfl

theorem not_inside_generatedDir (hfront : front.head? ≠ some generatedDirName) :
    ¬ base.placeOf (generatedDir options) <+: base.placeOf options.root ++ front := by
  rw [placeOf_generatedDir, List.prefix_append_right_inj]
  exact fun hinside => hfront (head?_of_front hinside)

section

variable (hfault : options.fault? = none)

include hfault

/-- The generator's directory and that of the module lie apart. -/
theorem not_inside_of_moduleDir (hinside : base.placeOf options.moduleDir <+: place) :
    ¬ base.placeOf (generatedDir options) <+: place := by
  obtain ⟨names, rfl⟩ := hinside
  rw [placeOf_below (ProjectOptions.below_moduleDir hfault), List.append_assoc]
  exact not_inside_generatedDir (by simp; decide)

theorem settled_of_importable (himport : Importable options names) (base : FileTree) :
    Settled base options (base.placeOf options.moduleDir ++ names) where
  notBuild := by
    rw [placeOf_join (by decide), placeOf_below (ProjectOptions.below_moduleDir hfault),
      List.append_assoc, List.prefix_append_right_inj]
    exact fun hinside => absurd (head?_of_front hinside) (by simp)
  notController := by
    rw [placeOf_controllerDir, List.prefix_append_right_inj]
    exact himport.notController
  notModule := by
    rw [modulePath, placeOf_join (isSegment_moduleFile hfault)]
    exact fun heq => himport.notModule (List.append_cancel_left heq)

theorem settled_of_generated (hinside : base.placeOf (generatedDir options) <+: place) :
    Settled base options place where
  notBuild := by
    obtain ⟨names, rfl⟩ := hinside
    rw [placeOf_join (by decide), placeOf_generatedDir, List.append_assoc, List.prefix_append_right_inj]
    exact fun hbuild => absurd (head?_of_front hbuild) (by simp; decide)
  notController := by
    rw [placeOf_controllerDir]
    exact fun hcontroller =>
      not_inside_of_moduleDir hfault ((List.prefix_append _ _).trans hcontroller) hinside
  notModule := by
    rintro rfl
    refine not_inside_of_moduleDir hfault ?_ hinside
    rw [modulePath, placeOf_join (isSegment_moduleFile hfault)]
    exact List.prefix_append _ _

end

/-! ## What the generator's directory offers -/

/-- What is offered in one of the generator's directories for one of the module's. -/
def dirOffer (tree : FileTree) (options : ProjectOptions) (source target : Text) :
    List Text → Option Content
  | [] => none
  | name :: names =>
    if name = target then tree.fileIn? (Path.join (generatedDir options) source) names else none

/-- What is offered for one of the loose files. -/
def fileOffer (tree : FileTree) (options : ProjectOptions) (name : Text) (names : List Text) :
    Option Content :=
  if names = [name] then tree.fileAt? (Path.join (generatedDir options) name) else none

/-- What is offered among loose files. -/
def looseOffer (tree : FileTree) (options : ProjectOptions) : List Text → List Text → Option Content
  | [], _ => none
  | name :: loose, names => (looseOffer tree options loose names).or (fileOffer tree options name names)

/-- The file that the generator's directory offers for a place below the module's directory. -/
def offered? (tree : FileTree) (options : ProjectOptions) (names : List Text) : Option Content :=
  (looseOffer tree options ImportedSources.looseFiles names).or
    ((dirOffer tree options "api" "services" names).or (dirOffer tree options "model" "model" names))

theorem dirOffer_congr (hsame : SameOffer (generatedDir options) before middle)
    (hsource : Path.IsSegment source) (target : Text) (names : List Text) :
    dirOffer middle options source target names = dirOffer before options source target names := by
  cases names with
  | nil => rfl
  | cons name names => rw [dirOffer, dirOffer, hsame.fileIn? hsource]

theorem looseOffer_congr (hsame : SameOffer (generatedDir options) before middle)
    (hloose : ∀ name ∈ loose, Path.IsSegment name) (names : List Text) :
    looseOffer middle options loose names = looseOffer before options loose names := by
  induction loose with
  | nil => rfl
  | cons name loose ih =>
      obtain ⟨hname, hrest⟩ := List.forall_mem_cons.mp hloose
      rw [looseOffer, looseOffer, ih hrest, fileOffer, fileOffer, hsame.fileAt? hname]

theorem exists_of_looseOffer {tree : FileTree} {content : Content}
    (hloose : ∀ name ∈ loose, Path.IsSegment name)
    (hoffered : looseOffer tree options loose names = some content) :
    ∃ place, tree.placeOf (generatedDir options) <+: place ∧ tree.file? place = some content := by
  induction loose with
  | nil => cases hoffered
  | cons name loose ih =>
      obtain ⟨hname, hrest⟩ := List.forall_mem_cons.mp hloose
      rcases Option.or_eq_some_iff.mp hoffered with hlater | ⟨-, hfirst⟩
      · exact ih hrest hlater
      · unfold fileOffer at hfirst
        split at hfirst
        · refine ⟨_, ?_, file?_of_fileAt? hfirst⟩
          rw [placeOf_join hname]
          exact List.prefix_append _ _
        · cases hfirst

/-- What stands in the generator's directory is all that is offered. -/
theorem exists_of_offered? {tree : FileTree} {content : Content}
    (hoffered : offered? tree options names = some content) :
    ∃ place, tree.placeOf (generatedDir options) <+: place ∧ tree.file? place = some content := by
  have hdir {source target : Text} (hsource : Path.IsSegment source)
      (hfile : dirOffer tree options source target names = some content) :
      ∃ place, tree.placeOf (generatedDir options) <+: place ∧ tree.file? place = some content := by
    unfold dirOffer at hfile
    split at hfile
    · cases hfile
    · split at hfile
      · refine ⟨_, ?_, file?_of_fileIn? hfile⟩
        rw [placeOf_join hsource, List.append_assoc]
        exact List.prefix_append _ _
      · cases hfile
  have hordinary : ∀ name ∈ ImportedSources.looseFiles, Path.IsSegment name := by decide
  rcases Option.or_eq_some_iff.mp hoffered with hloose | ⟨-, hdirs⟩
  · exact exists_of_looseOffer hordinary hloose
  · rcases Option.or_eq_some_iff.mp hdirs with hapi | ⟨-, hmodel⟩
    · exact hdir (by decide) hapi
    · exact hdir (by decide) hmodel

/-! ## The copies -/

/-- Offered files are laid over those of the module's directory, and the generator's directory stays
as it is. -/
structure Overlaid (options : ProjectOptions) (offer : List Text → Option Content)
    (before after : FileTree) : Prop where
  plain : after.Plain
  workingDir : after.workingDir = before.workingDir
  sameOffer : SameOffer (generatedDir options) before after
  isDir : before.isDir (generatedDir options) = true → after.isDir (generatedDir options) = true
  files : ∀ names, after.file? (before.placeOf options.moduleDir ++ names) =
    (offer names).or (before.file? (before.placeOf options.moduleDir ++ names))

theorem Overlaid.refl (hplain : before.Plain) : Overlaid options (fun _ => none) before before :=
  ⟨hplain, rfl, .refl _ _, id, fun _ => rfl⟩

theorem Overlaid.trans {first second : List Text → Option Content}
    (hfirst : Overlaid options first before middle) (hsecond : Overlaid options second middle last) :
    Overlaid options (fun names => (second names).or (first names)) before last where
  plain := hsecond.plain
  workingDir := hsecond.workingDir.trans hfirst.workingDir
  sameOffer := hfirst.sameOffer.trans hsecond.sameOffer
  isDir := hsecond.isDir ∘ hfirst.isDir
  files := by
    intro names
    have hlast := hsecond.files names
    rw [placeOf_congr hfirst.workingDir] at hlast
    rw [hlast, hfirst.files, Option.or_assoc]

section

variable (hfault : options.fault? = none)

include hfault

/-- Below the module's directory nothing is done to the generator's directory, and if there is a way
to the project all directories on it are there already. -/
theorem keptBelow_leaves (hroot : base.Passable (base.startOf options.root) options.root.steps) :
    Change.KeptBelow options.moduleDir
      (Confined (.leaves (base.placeOf (generatedDir options))) base) := by
  refine Change.keptBelow_confined (Permit.transitive_leaves _) ?_ ?_
  · rintro current hconfined place hvacant (hpasses | hinside)
    · rcases hpasses.of_below (ProjectOptions.below_moduleDir hfault) with hpasses | ⟨front, hfront, rfl⟩
      · -- the way to the project is not vacant
        have hthere := entry?_of_passes hroot hpasses
        rcases hconfined.entries place with hsame | ⟨-, hnotDir⟩
        · rw [hvacant, hthere] at hsame
          cases hsame
        · exact absurd hthere hnotDir
      · refine ⟨not_inside_generatedDir ?_, by simp⟩
        cases front with
        | nil => simp
        | cons first front =>
            rw [(List.cons_prefix_cons.mp hfront).1, List.head?_cons]
            decide
    · exact ⟨not_inside_of_moduleDir hfault hinside, by simp⟩
  · exact fun place old content hinside _ hdir => ⟨not_inside_of_moduleDir hfault hinside, hdir⟩

/-- What is offered stays the same in a step that does nothing without a way to the generator's
directory. -/
theorem overlaid_of_leaves {offer : List Text → Option Content} (hbefore : before.Plain)
    (hafter : last.Plain) (hworking : last.workingDir = before.workingDir)
    (hidle : ¬ before.Passable (before.startOf (generatedDir options)) (generatedDir options).steps →
      last = before)
    (hleaves : Change.KeptBelow options.moduleDir
        (Confined (.leaves (before.placeOf (generatedDir options))) before) →
      Confined (.leaves (before.placeOf (generatedDir options))) before last)
    (hfiles : ∀ names, last.file? (before.placeOf options.moduleDir ++ names) =
      (offer names).or (before.file? (before.placeOf options.moduleDir ++ names))) :
    Overlaid options offer before last := by
  have hname : Path.IsSegment generatedDirName := by decide
  refine ⟨hafter, hworking, ?_, fun hdir => ?_, hfiles⟩
  · by_cases hdirs : before.Passable (before.startOf (generatedDir options)) (generatedDir options).steps
    · have hroot := ((passable_join_iff hname).mp hdirs).1
      exact (hleaves (keptBelow_leaves hfault hroot)).sameOffer hbefore hdirs
    · exact hidle hdirs ▸ .refl _ _
  · have hroot := ((isDir_join_iff hname hbefore.linkFree).mp hdir).2.1
    exact (hleaves (keptBelow_leaves hfault hroot)).isDir_join hbefore hname hdir

/-- What is in the generator's directory and what is in that of the module are never in one place. -/
theorem apart_of_moduleDir (hsource : Path.IsSegment source) (htarget : Path.IsSegment target)
    (base : FileTree) (names more : List Text) :
    base.placeOf (Path.join (generatedDir options) source) ++ names ≠
      base.placeOf (Path.join options.moduleDir target) ++ more := by
  rw [placeOf_join hsource, placeOf_join htarget, List.append_assoc, List.append_assoc]
  intro heq
  have hinside : base.placeOf options.moduleDir <+:
      base.placeOf (generatedDir options) ++ ([source] ++ names) := heq ▸ List.prefix_append _ _
  exact not_inside_of_moduleDir hfault hinside (List.prefix_append _ _)

variable (hplain : world.tree.Plain)

include hplain

theorem overlaid_of_copyDir (hsource : Path.IsSegment source) (htarget : Path.IsSegment target)
    (hok : Run.copyDir (Path.join (generatedDir options) source) (Path.join options.moduleDir target)
      world = .ok count after) :
    Overlaid options (dirOffer world.tree options source target) world.tree after.tree := by
  have hplace := placeOf_join htarget world.tree options.moduleDir
  obtain ⟨hconfined, hoverlay⟩ :=
    Run.copyDir_ok hplain (apart_of_moduleDir hfault hsource htarget world.tree) hok
  refine overlaid_of_leaves hfault hplain hconfined.plain hconfined.workingDir (fun hdirs => ?_)
    (fun hkept => ?_) fun names => ?_
  · have hnot : ¬ world.tree.isDir (Path.join (generatedDir options) source) = true := fun hdir =>
      hdirs ((isDir_join_iff hsource hplain.linkFree).mp hdir).2.1
    rw [Run.copyDir_of_not_isDir hnot] at hok
    cases hok
    rfl
  · exact (hkept.copyDir (fun _ hleaves => hleaves.plain)
      (ProjectOptions.below_inModule htarget options) (by simp) _).of_ok hok (.refl hplain)
  · rw [hplace] at hconfined hoverlay
    cases names with
    | nil =>
        refine hconfined.file?_eq fun hinside => ?_
        have hlength := hinside.length_le
        rw [List.append_nil, List.length_append, List.length_singleton] at hlength
        omega
    | cons name names =>
        rw [dirOffer]
        split
        next heq =>
          subst heq
          simpa only [List.append_assoc, List.singleton_append] using hoverlay names
        next hne =>
          refine hconfined.file?_eq ?_
          rw [List.prefix_append_right_inj, List.cons_prefix_cons]
          exact fun hinside => hne hinside.1.symm

theorem overlaid_of_copyFile (hname : Path.IsSegment name) {copied : Bool}
    (hok : Run.copyFileIfThere (Path.join (generatedDir options) name)
      (Path.join options.moduleDir name) world = .ok copied after) :
    Overlaid options (fileOffer world.tree options name) world.tree after.tree := by
  have hplace := placeOf_join hname world.tree options.moduleDir
  have hapart := apart_of_moduleDir hfault hname hname world.tree [] []
  rw [List.append_nil, List.append_nil] at hapart
  obtain ⟨hconfined, hoverlay⟩ := Run.copyFileIfThere_ok hplain hapart hok
  refine overlaid_of_leaves hfault hplain hconfined.plain hconfined.workingDir (fun hdirs => ?_)
    (fun hkept => ?_) fun names => ?_
  · have hnot : ¬ world.tree.isFile (Path.join (generatedDir options) name) = true := fun hfile =>
      hdirs ((isFile_join_iff hname hplain.linkFree).mp hfile).2.1
    rw [Run.copyFileIfThere_of_not_isFile hnot] at hok
    cases hok
    rfl
  · exact (hkept.copyFileIfThere (ProjectOptions.below_inModule hname options) (by simp) _).of_ok hok
      (.refl hplain)
  · rw [hplace] at hconfined hoverlay
    unfold fileOffer
    split
    next heq =>
      rw [heq]
      exact hoverlay
    next hne => exact hconfined.file?_eq fun heq => hne (List.append_cancel_left heq)

theorem overlaid_of_copyLoose (hloose : ∀ name ∈ loose, Path.IsSegment name)
    (hok : ImportedSources.copyLoose (generatedDir options) options.moduleDir loose world =
      .ok count after) :
    Overlaid options (looseOffer world.tree options loose) world.tree after.tree := by
  induction loose generalizing world count with
  | nil =>
      obtain ⟨-, rfl⟩ := Run.pure_eq_ok_iff.mp hok
      exact .refl hplain
  | cons name loose ih =>
      obtain ⟨hname, hrest⟩ := List.forall_mem_cons.mp hloose
      obtain ⟨copied, middle, hcopy, hok⟩ := Run.bind_eq_ok_iff.mp hok
      obtain ⟨others, last, hothers, hok⟩ := Run.bind_eq_ok_iff.mp hok
      obtain ⟨-, rfl⟩ := Run.pure_eq_ok_iff.mp hok
      have hfirst := overlaid_of_copyFile hfault hplain hname hcopy
      have hlast := hfirst.trans (ih hfirst.plain hrest hothers)
      refine { hlast with files := fun names => (hlast.files names).trans ?_ }
      rw [looseOffer_congr hfirst.sameOffer hrest, looseOffer]

theorem overlaid_of_copies {models services copies : Nat} {first second copied : World}
    (hmodels : Run.copyDir (Path.join (generatedDir options) "model")
      (Path.join options.moduleDir "model") world = .ok models first)
    (hservices : Run.copyDir (Path.join (generatedDir options) "api")
      (Path.join options.moduleDir "services") first = .ok services second)
    (hloose : ImportedSources.copyLoose (generatedDir options) options.moduleDir
      ImportedSources.looseFiles second = .ok copies copied) :
    Overlaid options (offered? world.tree options) world.tree copied.tree := by
  have hordinary : ∀ name ∈ ImportedSources.looseFiles, Path.IsSegment name := by decide
  have hfirst := overlaid_of_copyDir hfault hplain (by decide) (by decide) hmodels
  have hsecond := hfirst.trans
    (overlaid_of_copyDir hfault hfirst.plain (by decide) (by decide) hservices)
  have hlast := hsecond.trans (overlaid_of_copyLoose hfault hsecond.plain hordinary hloose)
  refine { hlast with files := fun names => (hlast.files names).trans ?_ }
  rw [looseOffer_congr hsecond.sameOffer hordinary, dirOffer_congr hfirst.sameOffer (by decide)]
  rfl

end

/-! ## The import -/

/-- What the generator's directory offered was laid over the files of the module's directory, but for
the services' index, and no file is left in the generator's directory. -/
structure Imported (options : ProjectOptions) (before after : FileTree) : Prop where
  plain : after.Plain
  workingDir : after.workingDir = before.workingDir
  files : ∀ names, Importable options names →
    after.file? (before.placeOf options.moduleDir ++ names) =
        (offered? before options names).or (before.file? (before.placeOf options.moduleDir ++ names)) ∨
      names = ["services".toList, ImportedSources.indexFile] ∧
        after.file? (before.placeOf options.moduleDir ++ names) = none
  cleared : before.isDir (generatedDir options) = true →
    ∀ place, before.placeOf (generatedDir options) <+: place → after.file? place = none

section

variable (hfault : options.fault? = none)

include hfault

/-- What happens only where nothing is settled leaves an import as it is. -/
theorem Imported.settle (himported : Imported options before middle)
    (hlater : Confined (.sparesFiles (Settled middle options)) middle last) :
    Imported options before last where
  plain := hlater.plain
  workingDir := hlater.workingDir.trans himported.workingDir
  files := by
    intro names hnames
    have hsettled := settled_of_importable hfault hnames middle
    rw [placeOf_congr himported.workingDir] at hsettled
    rw [hlater.file?_eq hsettled]
    exact himported.files names hnames
  cleared := by
    intro hdir place hinside
    rw [← himported.cleared hdir place hinside]
    rw [← placeOf_congr himported.workingDir] at hinside
    exact hlater.file?_eq (settled_of_generated hfault hinside)

theorem imported_of_fetch {imported : ImportedSources} (hplain : world.tree.Plain)
    (hok : ImportedSources.fetch (generatedDir options) options.moduleDir world = .ok imported after) :
    Imported options world.tree after.tree := by
  obtain ⟨models, first, hmodels, hok⟩ := Run.bind_eq_ok_iff.mp hok
  obtain ⟨services, second, hservices, hok⟩ := Run.bind_eq_ok_iff.mp hok
  obtain ⟨loose, copied, hloose, hok⟩ := Run.bind_eq_ok_iff.mp hok
  obtain ⟨index, indexed, hindex, hok⟩ := Run.bind_eq_ok_iff.mp hok
  obtain ⟨generated, last, hgenerated, hok⟩ := Run.bind_eq_ok_iff.mp hok
  cases hok
  have hcopied := overlaid_of_copies hfault hplain hmodels hservices hloose
  have hplace := placeOf_congr hcopied.workingDir
  have hindexed := Run.removeFileIfThere_ok hcopied.plain hindex
  have hindexPlace :
      copied.tree.placeOf (Path.join (Path.join options.moduleDir "services") ImportedSources.indexFile) =
        world.tree.placeOf options.moduleDir ++ ["services".toList, ImportedSources.indexFile] :=
    hplace options.moduleDir ▸ placeOf_below ((ProjectOptions.below_serviceDir options).join (by decide))
  have hgone := (Run.removeDirAllIfThere_ok hindexed.plain hgenerated).1
  refine ⟨hgone.plain, (hgone.workingDir.trans hindexed.workingDir).trans hcopied.workingDir,
    fun names _ => ?_, fun hdir place hinside => ?_⟩
  · have hkept : last.tree.file? (world.tree.placeOf options.moduleDir ++ names) =
        indexed.tree.file? (world.tree.placeOf options.moduleDir ++ names) := by
      refine congrArg (Option.bind · Entry.content?) (hgone.entry?_eq fun ⟨hinside, _⟩ => ?_)
      rw [hindexed.placeOf_eq, hplace] at hinside
      exact not_inside_of_moduleDir hfault (List.prefix_append _ _) hinside
    rw [hkept, ← hcopied.files names]
    rcases hindexed.entries (world.tree.placeOf options.moduleDir ++ names) with
      hsame | ⟨hindexed, -, hnone⟩
    · exact Or.inl (congrArg (Option.bind · Entry.content?) hsame)
    · rw [hindexPlace] at hindexed
      exact Or.inr ⟨List.append_cancel_left hindexed, by rw [file?, hnone]; rfl⟩
  · have hleft : Confined (.leaves (world.tree.placeOf (generatedDir options))) copied.tree
        indexed.tree := by
      refine hindexed.mono ?_
      rintro other old new ⟨rfl, ⟨content, rfl⟩, -⟩
      refine ⟨?_, by simp⟩
      rw [hindexPlace]
      exact not_inside_of_moduleDir hfault (List.prefix_append _ _)
    rw [← hplace, ← hindexed.placeOf_eq] at hinside
    exact Run.file?_of_removeDirAllIfThere hindexed.plain hgenerated
      (hleft.isDir_join hcopied.plain (by decide) (hcopied.isDir hdir)) hinside

theorem imported_of_importGenerated {imported : ImportedSources} (hplain : world.tree.Plain)
    (hok : importGenerated options world = .ok imported after) :
    Imported options world.tree after.tree := by
  obtain ⟨sources, fetched, hfetch, hok⟩ := Run.bind_eq_ok_iff.mp hok
  have hfetched := imported_of_fetch hfault hplain hfetch
  refine hfetched.settle hfault (Run.Keeps.of_ok (Run.Keeps.bind ?_ fun removed => ?_) hok
    (.refl hfetched.plain))
  · exact Run.keeps_removeDirAllIfThere (Change.confined_of_removesAll
      (Permit.transitive_sparesFiles _)
      fun place old hinside _ hsettled => absurd hinside hsettled.notBuild)
  · split
    · exact (Run.keeps_tell _).bind fun _ => Run.keeps_pure _
    · exact Run.keeps_pure _

/-- Where the services are imported, the generator was started and succeeded, and what it left is what
was imported. -/
theorem imported_of_importServices {imported : ImportedSources}
    (hhost : host.Keeps fun tree => tree.Plain ∧ tree.workingDir = base.workingDir)
    (hplain : world.tree.Plain) (hworking : world.tree.workingDir = base.workingDir)
    (hok : importServices host settings options document world = .ok imported after) :
    ∃ launched, Started host settings options document world launched ∧
      launched.status.isSuccess = true ∧ launched.tree.workingDir = base.workingDir ∧
      Imported options launched.tree after.tree := by
  rw [importServices_eq] at hok
  obtain ⟨⟨⟩, ended, hrun, hok⟩ := Run.bind_eq_ok_iff.mp hok
  obtain ⟨launched, hstarted, hsuccess, hended⟩ := runGenerator_ok hrun
  obtain ⟨hlaunched, hsame⟩ := hhost _ _ _ _ hstarted.launch ⟨hplain, hworking⟩
  have himported := imported_of_importGenerated hfault (hended ▸ hlaunched) hok
  exact ⟨launched, hstarted, hsuccess, hsame, hended ▸ himported⟩

end

theorem writeControllers_settled (filter : ServiceFilter) (serviceDir : Path) :
    (writeControllers filter serviceDir options.controllerDir).Keeps
      (Confined (.sparesFiles (Settled base options)) base) :=
  keeps_writeControllers_below filter serviceDir
    (Change.keptBelow_sparesFiles fun _ hinside _ hsettled => hsettled.notController hinside)

/-- At the end no file is written but the module. -/
theorem finish_sparesFiles (contents : ModuleContents) : (finish options contents).Keeps
    (Confined (.sparesFiles fun place => place ≠ base.placeOf (modulePath options)) base) := by
  have htrans := Permit.transitive_sparesFiles fun place => place ≠ base.placeOf (modulePath options)
  refine keeps_finish (fun content => Run.keeps_writeUnlessThere (fun parent _ => ?_) ?_)
    (Run.keeps_removeDirIfEmpty ?_) (Run.keeps_removeDirIfEmpty ?_) contents
  · exact Change.confined_of_creates htrans fun _ _ _ _ _ _ => rfl
  · exact Change.confined_of_writes htrans fun old _ hkept => absurd rfl hkept
  · exact Change.confined_of_removesDir htrans fun _ _ _ _ => rfl
  · exact Change.confined_of_removesDir htrans fun _ _ _ _ => rfl

section

variable (hfault : options.fault? = none)

include hfault

theorem Imported.writeControllers {filter : ServiceFilter}
    (himported : Imported options before world.tree)
    (hok : writeControllers filter options.serviceDir options.controllerDir world = .ok contents after) :
    Imported options before after.tree :=
  himported.settle hfault
    ((writeControllers_settled filter options.serviceDir).of_ok hok (.refl himported.plain))

theorem Imported.finish (himported : Imported options before world.tree)
    (hok : finish options contents world = .ok () after) : Imported options before after.tree :=
  himported.settle hfault (((finish_sparesFiles contents).of_ok hok (.refl himported.plain)).mono
    fun _ _ _ hspares hsettled => hspares hsettled.notModule)

end

/-- A service that stands in the module's directory was offered or stood there before. -/
theorem Imported.service_ne_none (himported : Imported options before last)
    (hname : Path.IsSegment name) {content : Content}
    (hservice : last.entry? (last.placeOf (Path.join options.serviceDir name)) =
      some (.file content)) :
    (offered? before options ["services", name]).or
      (before.file? (before.placeOf options.moduleDir ++ ["services".toList, name])) ≠ none := by
  rw [placeOf_below ((ProjectOptions.below_serviceDir options).join hname),
    placeOf_congr himported.workingDir] at hservice
  have hstands := file?_eq_some_iff.mpr hservice
  rcases himported.files ["services".toList, name] ⟨by simp, by simp⟩ with hoverlay | ⟨-, hnone⟩
  · exact ne_of_eq_of_ne (hoverlay.symm.trans hstands) (by simp)
  · cases hstands.symm.trans hnone

/-- A controller that was written belongs to a service that was offered or stood there before. -/
theorem Imported.exists_service (himported : Imported options before last) {filter : ServiceFilter}
    {found : List Text} {files : List ServiceFile} {file : ServiceFile}
    (hdiscovered : filter.Discovered found)
    (hwritten : List.Forall₂ (Controller.Written options.serviceDir options.controllerDir last)
      found files)
    (hfile : file ∈ files) :
    ∃ name, ServiceFile.ofPath? name = some file ∧
      (offered? before options ["services", name]).or
        (before.file? (before.placeOf options.moduleDir ++ ["services".toList, name])) ≠ none := by
  obtain ⟨i, hfile⟩ := List.getElem?_of_mem hfile
  obtain ⟨name, hname, hservice⟩ := exists_getElem?_of_forall₂ hwritten.flip hfile
  obtain ⟨text, htext⟩ := hservice.service
  have hordinary := hdiscovered.ordinary name (List.mem_of_getElem? hname)
  exact ⟨name, hservice.parsed, himported.service_ne_none hordinary htext⟩

/-! ## The whole project -/

/-- Before the generator is started no files are written but those that every project has. -/
theorem prepare_sparesFiles : (prepare options).Keeps
    (Confined (.sparesFiles fun place => ¬ Planned base options place) base) := by
  have htrans := Permit.transitive_sparesFiles fun place => ¬ Planned base options place
  have hcreate (path : Path) : (Change.makeDirAll path).Keeps
      (Confined (.sparesFiles fun place => ¬ Planned base options place) base) :=
    Change.confined_of_creates htrans fun _ _ _ _ _ _ => rfl
  refine keeps_prepare_of_layOut fun _ => keeps_layOut (Run.keeps_createDir (hcreate _))
    (Run.keeps_createDir (hcreate _)) (keeps_stage fun file hfile => ?_)
  exact Run.keeps_writeUnlessThere (fun parent _ => hcreate parent)
    (Change.confined_of_writes htrans fun old _ hkept => absurd ⟨file, hfile, rfl⟩ hkept)

/-- If no file stood in the generator's directory before, all that it offers was put there after the
project had been staged. -/
theorem exists_put_of_offered? {content : Content}
    (hstaged : Confined (.sparesFiles fun place => ¬ Planned base options place) base before)
    (hworking : middle.workingDir = base.workingDir)
    (hnone : ∀ place, base.placeOf (generatedDir options) <+: place → base.file? place = none)
    (hoffered : offered? middle options names = some content) :
    ∃ place, base.placeOf (generatedDir options) <+: place ∧ before.file? place = none ∧
      middle.file? place = some content := by
  obtain ⟨place, hinside, hfile⟩ := exists_of_offered? hoffered
  rw [placeOf_congr hworking] at hinside
  have hnotPlanned : ¬ Planned base options place := fun hplanned =>
    not_removed_of_planned hplanned (by simp) hinside
  exact ⟨place, hinside, (hstaged.file?_eq hnotPlanned).trans (hnone place hinside), hfile⟩

/-- A project that was generated from a document has in its module what the generator's directory
offered when the generator ended, laid over the files that were there; a controller belongs to a
service file of these. If no file stood in the generator's directory before the run, the generator
wrote in this run all that was offered, and no file is left there for a later one. -/
theorem scaffold_imports (hplain : world.tree.Plain)
    (hhost : host.Keeps fun tree => tree.Plain ∧ tree.workingDir = world.tree.workingDir)
    (hdocument : options.document? = some document)
    (hok : scaffold host settings options world = .ok report after)
    (hreport : report.openApiFailure? = none) :
    ∃ staged launched, prepare options world = .ok () staged ∧
      Started host settings options document staged launched ∧ launched.status.isSuccess = true ∧
      (∀ names, Importable options names →
        after.tree.file? (world.tree.placeOf options.moduleDir ++ names) =
            (offered? launched.tree options names).or
              (launched.tree.file? (world.tree.placeOf options.moduleDir ++ names)) ∨
          names = ["services".toList, ImportedSources.indexFile] ∧
            after.tree.file? (world.tree.placeOf options.moduleDir ++ names) = none) ∧
      (∀ path ∈ report.controllers, ∃ name file, ServiceFile.ofPath? name = some file ∧
        path = file.controllerPath options.controllerDir ∧
        (offered? launched.tree options ["services", name]).or
          (launched.tree.file? (world.tree.placeOf options.moduleDir ++ ["services".toList, name])) ≠
          none) ∧
      ((∀ place, world.tree.placeOf (generatedDir options) <+: place → world.tree.file? place = none) →
        ∀ names content, offered? launched.tree options names = some content →
          ∃ place, world.tree.placeOf (generatedDir options) <+: place ∧
            staged.tree.file? place = none ∧ launched.tree.file? place = some content) ∧
      (launched.tree.isDir (generatedDir options) = true →
        ∀ place, world.tree.placeOf (generatedDir options) <+: place →
          after.tree.file? place = none) := by
  obtain ⟨staged, imported, middle, contents, generated, told, hprepare, himport, hwrite, htold,
    hfinish, hcontrollers⟩ := scaffold_ok hdocument hok hreport
  have hfault := fault?_of_prepare_ok hprepare
  rw [returns_importServices host settings options document _ _ _ himport] at hwrite
  have hstaged := prepare_sparesFiles.of_ok hprepare (.refl hplain)
  obtain ⟨launched, hstarted, hsuccess, hworking, himported⟩ :=
    imported_of_importServices hfault hhost hstaged.plain hstaged.workingDir himport
  have hplace := placeOf_congr hworking
  -- the batch and what follows it leave the import as it is
  have hbatch := himported.writeControllers hfault hwrite
  rw [← htold] at hbatch
  have hlast := hbatch.finish hfault hfinish
  refine ⟨staged, launched, hprepare, hstarted, hsuccess, fun names hnames => ?_,
    fun path hpath => ?_, fun hnone names content hoffered => ?_, fun hdir place hinside => ?_⟩
  · rw [← hplace]
    exact hlast.files names hnames
  · obtain ⟨found, _, -, hdiscovered, files, rfl, hwritten, -⟩ :=
      written_of_writeControllers himported.plain hwrite
    rw [← htold] at hwritten
    rw [hcontrollers] at hpath
    obtain ⟨file, hfile, rfl⟩ := List.mem_map.mp hpath
    obtain ⟨name, hparsed, hservice⟩ := hbatch.exists_service hdiscovered hwritten hfile
    exact ⟨name, file, hparsed, rfl, hplace options.moduleDir ▸ hservice⟩
  · exact exists_put_of_offered? hstaged hworking hnone hoffered
  · rw [← hplace] at hinside
    exact hlast.cleared hdir place hinside

theorem scaffold_imports_smallProject :
    ∃ report after staged launched,
      scaffold petHost {} (smallProject ".") (.ofTree ⟨[], []⟩) = .ok report after ∧
      Started petHost {} (smallProject ".") "http://d" staged launched ∧
      after.tree.file? ["a-s", "src", "modules", "s", "services", "pet.service.ts"] =
        (offered? launched.tree (smallProject ".") ["services", "pet.service.ts"]).or
          (launched.tree.file? ["a-s", "src", "modules", "s", "services", "pet.service.ts"]) ∧
      ∀ names content, offered? launched.tree (smallProject ".") names = some content →
        ∃ place, staged.tree.file? place = none ∧ launched.tree.file? place = some content := by
  have hends : Run.endsIn (fun report _ => report.openApiFailure? = none)
      (scaffold petHost {} (smallProject ".") (.ofTree ⟨[], []⟩)) = true := by
    decide +kernel
  obtain ⟨report, after, hok, hreport⟩ := Run.exists_ok_of_endsIn hends
  have hhost : petHost.Keeps fun tree => tree.Plain ∧ tree.workingDir = [] := by
    have hpet : petHost = puttingHost (generatedService "pet.service.ts" "public find()") (.code 0) := rfl
    rintro program arguments tree launched hlaunch ⟨hplain, hworking⟩
    rw [hpet] at hlaunch
    obtain ⟨hlast, hsame⟩ := plain_of_puttingHost (by decide +kernel) hlaunch hplain
    exact ⟨hlast, hsame.trans hworking⟩
  obtain ⟨staged, launched, -, hstarted, -, hfiles, -, hwrote, -⟩ :=
    scaffold_imports (by decide +kernel) hhost rfl hok (of_decide_eq_true hreport)
  have hplace : FileTree.placeOf ⟨[], []⟩ (smallProject ".").moduleDir = ["a-s", "src", "modules", "s"] := by
    decide +kernel
  refine ⟨report, after, staged, launched, hok, hstarted, ?_, fun names content hoffered => ?_⟩
  · have hpet := (hfiles ["services", "pet.service.ts"] ⟨by decide, by decide⟩).resolve_right
      fun hindex => absurd hindex.1 (by decide)
    rwa [World.ofTree, hplace] at hpet
  · have hempty (place : Location) : FileTree.file? ⟨[], []⟩ place = none := by cases place <;> rfl
    obtain ⟨place, -, hplace⟩ := hwrote (fun place _ => hempty place) names content hoffered
    exact ⟨place, hplace⟩

/-- A host whose generator writes one service and fails. -/
def leftoverHost : Host := puttingHost (generatedService "old.service.ts" "public find()") (.code 3)

/-- What a generation that failed has left behind is imported by the next one that succeeds, and gets
a controller, though this one's generator writes nothing at all. -/
theorem exists_imported_leftover :
    (∀ program arguments tree launched, idleHost.launch program arguments tree = .ok launched →
      launched.tree = tree) ∧
    ∃ failed between report after,
      scaffold leftoverHost {} (smallProject ".") (.ofTree ⟨[], []⟩) = .ok failed between ∧
      failed.openApiFailure? = some (.generator (.code 3)) ∧
      between.tree.file? ["a-s", "src", "modules", "s", "services", "old.service.ts"] = none ∧
      scaffold idleHost {} (smallProject ".") between = .ok report after ∧
      report.openApiFailure? = none ∧
      after.tree.file? ["a-s", "src", "modules", "s", "services", "old.service.ts"] =
        some (.text "public find()") ∧
      report.controllers = ["./a-s/src/modules/s/controllers/old.controller.ts".toList] := by
  constructor
  · intro program arguments tree launched hlaunch
    cases hlaunch
    rfl
  · let old : Location := ["a-s", "src", "modules", "s", "services", "old.service.ts"]
    let path : Path := "./a-s/src/modules/s/controllers/old.controller.ts"
    have hends : Run.inTurnEndIn (fun failed between report tree =>
        failed.openApiFailure? = some (.generator (.code 3)) ∧ between.file? old = none ∧
          report.openApiFailure? = none ∧ report.controllers = [path] ∧
          tree.file? old = some (.text "public find()"))
        (scaffold leftoverHost {} (smallProject ".")) (scaffold idleHost {} (smallProject "."))
        (.ofTree ⟨[], []⟩) = true := by
      decide +kernel
    obtain ⟨failed, between, report, after, hfailed, hreport, hchecked⟩ :=
      Run.exists_ok_of_inTurnEndIn hends
    obtain ⟨hfailure, hbefore, hnone, hpaths, hfile⟩ := of_decide_eq_true hchecked
    exact ⟨failed, between, report, after, hfailed, hfailure, hbefore, hreport, hnone, hfile, hpaths⟩

end Project

end ServiceScaffold
