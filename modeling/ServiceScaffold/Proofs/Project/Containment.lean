import ServiceScaffold.Proofs.Project.Wiring

/-! # A project stays in its directory

Whatever becomes of it, a run changes nothing outside of the project's directory, but that missing
directories on the way to it are created. Files are lost in three places only, and only after the
generator has succeeded.
-/

namespace ServiceScaffold

open FileTree

/-! ## What is permitted -/

namespace Permit

variable {tree : FileTree} {root path : Path} {givenUp : Location → Prop}

/-- There was a file, and there is none any more. -/
structure Loses (old new : Option Entry) : Prop where
  before : ∃ content, old = some (.file content)
  after : ∀ content, new ≠ some (.file content)

/-- Inside the place of a path anything new may be created, and files may be written over. -/
def fills (tree : FileTree) (path : Path) : Permit := fun place old new =>
  tree.placeOf path <+: place ∧
    (old = none ∨ (∃ content, old = some (.file content)) ∧ ∃ content, new = some (.file content))

/-- Anything may happen inside the place of a path, but files are lost only where they are given up;
elsewhere directories may be created on the way to it. -/
def within (tree : FileTree) (root : Path) (givenUp : Location → Prop) : Permit := fun place old new =>
  tree.placeOf root <+: place ∧ (Loses old new → givenUp place) ∨ creates tree root place old new

theorem not_loses_none (new : Option Entry) : ¬ Loses none new := by
  rintro ⟨⟨content, hfile⟩, -⟩
  cases hfile

theorem not_loses_dir (new : Option Entry) : ¬ Loses (some .dir) new := by
  rintro ⟨⟨content, hfile⟩, -⟩
  cases hfile

theorem not_loses_file (old : Option Entry) (content : Content) : ¬ Loses old (some (.file content)) :=
  fun hloses => hloses.after content rfl

theorem within_of_not_loses {place : Location} {old new : Option Entry}
    (hinside : tree.placeOf root <+: place) (hkept : ¬ Loses old new) :
    within tree root givenUp place old new := Or.inl ⟨hinside, fun hloses => absurd hloses hkept⟩

theorem transitive_within : (within tree root givenUp).Transitive := by
  rintro place first second third hfirst hsecond
  rcases hfirst with ⟨hinside, hfirst⟩ | ⟨hpasses, rfl, rfl⟩
  · refine Or.inl ⟨hinside, fun ⟨hbefore, hafter⟩ => ?_⟩
    -- the file is lost in the first step unless it is there after it
    by_cases hfile : ∃ content, second = some (.file content)
    · rcases hsecond with ⟨-, hsecond⟩ | ⟨-, rfl, -⟩
      · exact hsecond ⟨hfile, hafter⟩
      · obtain ⟨content, hfile⟩ := hfile
        cases hfile
    · exact hfirst ⟨hbefore, not_exists.mp hfile⟩
  · rcases hsecond with ⟨hinside, -⟩ | ⟨-, hnone, -⟩
    · exact within_of_not_loses hinside (not_loses_none third)
    · cases hnone

theorem transitive_fills : (fills tree path).Transitive := by
  rintro place first second third ⟨hinside, hfirst⟩ ⟨-, hsecond⟩
  refine ⟨hinside, hfirst.imp_right fun ⟨hbefore, content, hfile⟩ => ⟨hbefore, ?_⟩⟩
  rcases hsecond with hnone | ⟨-, hafter⟩
  · rw [hfile] at hnone
    cases hnone
  · exact hafter

end Permit

/-- What is put at a vacancy inside the place of a path is new there. -/
theorem FileTree.Confined.put_fills {base tree : FileTree} {path : Path} {place : Location} {entry : Entry}
    (hconfined : Confined (.fills base path) base tree) (hvacant : tree.entry? place = none)
    (hplace : ∀ name ∈ place, Path.IsSegment name) (hinside : base.placeOf path <+: place)
    (hentry : ∀ target, entry ≠ .link target) :
    Confined (.fills base path) base (tree.put place entry) := by
  have hroot : place ≠ [] := by
    rintro rfl
    cases hvacant
  refine hconfined.trans Permit.transitive_fills
    ((confined_put hconfined.plain hplace hroot hentry).mono ?_)
  rintro other old new ⟨rfl, rfl, rfl⟩
  exact ⟨hinside, Or.inl hvacant⟩

theorem Change.keptBelow_within {base : FileTree} {root : Path} {givenUp : Location → Prop} :
    Change.KeptBelow root (Confined (.within base root givenUp) base) := by
  refine Change.keptBelow_confined Permit.transitive_within ?_ ?_
  · rintro current - place - (hpasses | hinside)
    · exact Or.inr ⟨hpasses, rfl, rfl⟩
    · exact Permit.within_of_not_loses hinside (Permit.not_loses_none _)
  · exact fun place old content hinside _ _ =>
      Permit.within_of_not_loses hinside (Permit.not_loses_file old content)

namespace Project

variable {host : Host} {settings : Settings} {options : ProjectOptions} {document : Text}
variable {world : World} {givenUp : Location → Prop}

/-- The places at which a project gives files up: those that it removes with the build, those that the
generator wrote for it, and the services' index. -/
def GivenUp (tree : FileTree) (options : ProjectOptions) (place : Location) : Prop :=
  (∃ name ∈ ["dist".toList, generatedDirName], tree.placeOf (Path.join options.root name) <+: place ∧
    place ≠ tree.placeOf (Path.join options.root name)) ∨
  place = tree.placeOf (Path.join options.serviceDir ImportedSources.indexFile)

/-- The generator is started in the run of a project, in this world, and comes to this. -/
structure Launches (host : Host) (settings : Settings) (options : ProjectOptions) (world : World)
    (document : Text) (staged : World) (launched : Launched) : Prop where
  given : options.document? = some document
  prepared : prepare options world = .ok () staged
  started : Started host settings options document staged launched

/-! ## Each stage -/

/-- The path leads into the project's directory. -/
theorem inside_root (tree : FileTree) {names : List Text} {path : Path}
    (hpath : Path.Below options.root names path) : tree.placeOf options.root <+: tree.placeOf path :=
  placeOf_below hpath ▸ List.prefix_append _ _

variable {base : FileTree}

theorem prepare_within : (prepare options).Keeps (Confined (.within base options.root givenUp) base) :=
  keeps_prepare_of_layOut fun hfault => keeps_layOut_below hfault Change.keptBelow_within

section

variable (hfault : options.fault? = none)

include hfault

theorem finish_within (contents : ModuleContents) :
    (finish options contents).Keeps (Confined (.within base options.root givenUp) base) := by
  have hmodule := ProjectOptions.below_moduleDir hfault
  have hremove {names : List Text} {path : Path} (hpath : Path.Below options.root names path) :
      (Change.removeDir path).Keeps (Confined (.within base options.root givenUp) base) :=
    Change.confined_of_removesDir Permit.transitive_within fun _ _ _ =>
      Permit.within_of_not_loses (inside_root base hpath) (Permit.not_loses_dir _)
  exact keeps_finish_below hfault (Change.keptBelow_within.down hmodule)
    (hremove (hmodule.join (by decide))) (hremove (hmodule.join (by decide))) contents

theorem import_within (hgivenUp : ∀ place, GivenUp base options place → givenUp place) :
    (importGenerated options).Keeps (Confined (.within base options.root givenUp) base) := by
  have hmodule := ProjectOptions.below_moduleDir hfault
  have hremove (name : Text) (hname : Path.IsSegment name)
      (hmem : name ∈ ["dist".toList, generatedDirName]) :
      (Change.removeDirAll (Path.join options.root name)).Keeps
        (Confined (.within base options.root givenUp) base) := by
    refine Change.confined_of_removesAll Permit.transitive_within fun place old hinside hdir => ?_
    refine Or.inl ⟨(inside_root base (ProjectOptions.below_root hname _)).trans hinside, ?_⟩
    refine fun hloses => hgivenUp place (Or.inl ⟨name, hmem, hinside, fun heq => ?_⟩)
    -- what is removed at the place itself is the directory
    rw [hdir heq] at hloses
    exact Permit.not_loses_dir _ hloses
  refine keeps_importGenerated_below (fun _ hconfined => hconfined.plain)
    (Change.keptBelow_within.down hmodule) ?_ (hremove _ (by decide) (by simp))
    (hremove _ (by decide) (by simp))
  refine Change.confined_of_removesFile Permit.transitive_within fun content => Or.inl ⟨?_, ?_⟩
  · exact inside_root base ((hmodule.trans (ProjectOptions.below_serviceDir options)).join (by decide))
  · exact fun _ => hgivenUp _ (Or.inr rfl)

theorem writeContents_within {staged : World} (hprepare : prepare options world = .ok () staged)
    (hgenerator : ∀ document launched, Launches host settings options world document staged launched →
      Confined (.fills staged.tree (Path.join options.root generatedDirName)) staged.tree launched.tree)
    (hgivenUp : ∀ document launched, Launches host settings options world document staged launched →
      launched.status.isSuccess = true → ∀ place, GivenUp base options place → givenUp place)
    (hstaged : Confined (.within base options.root givenUp) base staged.tree) :
    Confined (.within base options.root givenUp) base
      (lastState (writeContents host settings options staged)).tree := by
  refine holds_writeContents hfault (Change.keptBelow_within.down (ProjectOptions.below_moduleDir hfault))
    (fun document launched hdocument hstarted => ?_)
    (fun document launched hdocument hstarted hsuccess => import_within hfault
      (hgivenUp document launched ⟨hdocument, hprepare, hstarted⟩ hsuccess)) hstaged
  -- what the generator fills is in the project's directory
  have hfills := hgenerator document launched ⟨hdocument, hprepare, hstarted⟩
  refine hstaged.trans Permit.transitive_within (hfills.mono ?_)
  rintro place old new ⟨hinside, hnew⟩
  rw [hstaged.placeOf_eq] at hinside
  refine Permit.within_of_not_loses ((inside_root base
    (ProjectOptions.below_root (by decide) _)).trans hinside) ?_
  rcases hnew with rfl | ⟨-, content, rfl⟩
  · exact Permit.not_loses_none new
  · exact Permit.not_loses_file old content

end

/-! ## The whole run -/

/-- The directory of a project stands in the one that is given for it, under the project's name. -/
theorem placeOf_root (hfault : options.fault? = none) (tree : FileTree) :
    tree.placeOf options.root = tree.placeOf options.outputDir ++ [options.projectName] :=
  placeOf_join (ProjectOptions.isSegment_projectName hfault) _ _

/-- Outside of a project's directory nothing changes but that missing directories on the way to it are
created; it stands in the directory that is given for it, under the project's name. A file is lost only
with the build, with what the generator wrote and with the services' index, and only if the generator
was started in this run and succeeded. Options that are refused change nothing. -/
theorem scaffold_frame (hplain : world.tree.Plain)
    (hgenerator : ∀ document staged launched,
      Launches host settings options world document staged launched →
      Confined (.fills staged.tree (Path.join options.root generatedDirName)) staged.tree
        launched.tree) :
    (options.fault? = none → world.tree.placeOf options.root =
      world.tree.placeOf options.outputDir ++ [options.projectName]) ∧
    (∀ place, (lastState (scaffold host settings options world)).tree.entry? place ≠
        world.tree.entry? place →
      world.tree.placeOf options.root <+: place ∨
        Permit.creates world.tree options.root place (world.tree.entry? place)
          ((lastState (scaffold host settings options world)).tree.entry? place)) ∧
    (∀ place, Permit.Loses (world.tree.entry? place)
        ((lastState (scaffold host settings options world)).tree.entry? place) →
      GivenUp world.tree options place ∧ ∃ document staged launched,
        Launches host settings options world document staged launched ∧
          launched.status.isSuccess = true) ∧
    ∀ failure, options.fault? = some failure →
      scaffold host settings options world = .error failure world := by
  have hrefused (failure : Failure) (hfault : options.fault? = some failure) :
      scaffold host settings options world = .error failure world := by
    unfold scaffold
    rw [hfault]
    rfl
  let givenUp : Location → Prop := fun place => GivenUp world.tree options place ∧
    ∃ document staged launched, Launches host settings options world document staged launched ∧
      launched.status.isSuccess = true
  have hconfined : Confined (.within world.tree options.root givenUp) world.tree
      (lastState (scaffold host settings options world)).tree := by
    cases hfault : options.fault? with
    | some failure =>
        rw [hrefused failure hfault]
        exact .refl hplain
    | none =>
        rw [scaffold_eq]
        refine Run.holds_bind (prepare_within world (.refl hplain)) ?_
        rintro ⟨⟩ staged hprepare hstaged
        refine Run.holds_bind (writeContents_within hfault hprepare
          (fun document launched hlaunches => hgenerator document staged launched hlaunches)
          (fun document launched hlaunches hsuccess place hplace =>
            ⟨hplace, document, staged, launched, hlaunches, hsuccess⟩) hstaged) ?_
        rintro ⟨contents, failure?⟩ told - htold
        exact (finish_within hfault contents).bind (fun _ => Run.keeps_pure _) told htold
  refine ⟨fun hfault => placeOf_root hfault _, fun place hchanged => ?_, fun place hloses => ?_, hrefused⟩
  · exact ((hconfined.entries place).resolve_left hchanged).imp_left And.left
  · rcases hconfined.entries place with hsame | ⟨-, hgivenUp⟩ | ⟨-, hnone, -⟩
    · rw [hsame] at hloses
      obtain ⟨content, hfile⟩ := hloses.before
      exact absurd hfile (hloses.after content)
    · exact hgivenUp hloses
    · rw [hnone] at hloses
      exact absurd hloses (Permit.not_loses_none _)

/-- A tree with an earlier build of the small project, and with a file beside the project. -/
def builtTree : FileTree :=
  ⟨[], [(["notes"], .file (.text "kept")), (["a-s"], .dir), (["a-s", "dist"], .dir),
    (["a-s", "dist", "main.js"], .file (.text "built"))]⟩

theorem scaffold_frame_smallProject :
    (∀ place, (lastState (scaffold petHost {} (smallProject ".") (.ofTree builtTree))).tree.entry? place
        ≠ builtTree.entry? place →
      builtTree.placeOf (smallProject ".").root <+: place ∨
        Permit.creates builtTree (smallProject ".").root place (builtTree.entry? place)
          ((lastState (scaffold petHost {} (smallProject ".") (.ofTree builtTree))).tree.entry? place)) ∧
    Permit.Loses (builtTree.entry? ["a-s", "dist", "main.js"])
      ((lastState (scaffold petHost {} (smallProject ".") (.ofTree builtTree))).tree.entry?
        ["a-s", "dist", "main.js"]) ∧
    GivenUp builtTree (smallProject ".") ["a-s", "dist", "main.js"] := by
  let temp : Location := ["a-s", "__openapi-temp__"]
  let api : Location := ["a-s", "__openapi-temp__", "api"]
  let pet : Location := ["a-s", "__openapi-temp__", "api", "pet.service.ts"]
  have hprepare : Run.endsIn (fun _ tree => tree.workingDir = [] ∧ tree.Plain ∧
      tree.entry? temp = none ∧ tree.entry? api = none ∧ tree.entry? pet = none)
      (prepare (smallProject ".") (.ofTree builtTree)) = true := by decide +kernel
  obtain ⟨_, staged, hprepared, hchecked⟩ := Run.exists_ok_of_endsIn hprepare
  obtain ⟨hworking, hplain, htempVacant, hapiVacant, hpetVacant⟩ := of_decide_eq_true hchecked
  have hgenerator : ∀ document other launched,
      Launches petHost {} (smallProject ".") (.ofTree builtTree) document other launched →
      Confined (.fills other.tree (Path.join (smallProject ".").root generatedDirName)) other.tree
        launched.tree := by
    intro document other launched hlaunches
    obtain rfl : staged = other :=
      (EStateM.Result.ok.inj (hprepared.symm.trans hlaunches.prepared)).2
    have htemp : staged.tree.placeOf (Path.join (smallProject ".").root generatedDirName) = temp := by
      have hplace : staged.tree.placeOf (Path.join (smallProject ".").root generatedDirName) =
          builtTree.placeOf (Path.join (smallProject ".").root generatedDirName) :=
        placeOf_congr hworking _
      rw [hplace]
      decide +kernel
    cases hlaunches.started.launch
    -- each place is vacant when something is put there
    refine (((Confined.refl hplain).put_fills htempVacant ?_ ?_ (by simp)).put_fills ?_ ?_ ?_
      (by simp)).put_fills ?_ ?_ ?_ (by simp)
    · decide +kernel
    · rw [htemp]
    · rw [entry?_put (by simp), if_neg (by decide +kernel)]
      exact hapiVacant
    · decide +kernel
    · exact htemp ▸ ⟨_, rfl⟩
    · rw [entry?_put (by simp), if_neg (by decide +kernel), entry?_put (by simp),
        if_neg (by decide +kernel)]
      exact hpetVacant
    · decide +kernel
    · exact htemp ▸ ⟨_, rfl⟩
  have hbuilt : (World.ofTree builtTree).tree.Plain := by decide +kernel
  obtain ⟨-, hchanged, hgivenUp, -⟩ := scaffold_frame hbuilt hgenerator
  have hends : Run.endsIn (fun _ tree => tree.entry? ["a-s", "dist", "main.js"] = none)
      (scaffold petHost {} (smallProject ".") (.ofTree builtTree)) = true := by
    decide +kernel
  obtain ⟨report, after, hok, hchecked⟩ := Run.exists_ok_of_endsIn hends
  have hlost : Permit.Loses (builtTree.entry? ["a-s", "dist", "main.js"])
      ((lastState (scaffold petHost {} (smallProject ".") (.ofTree builtTree))).tree.entry?
        ["a-s", "dist", "main.js"]) := by
    refine ⟨⟨.text "built", rfl⟩, fun content hfile => ?_⟩
    rw [hok] at hfile
    cases (of_decide_eq_true hchecked).symm.trans hfile
  exact ⟨hchanged, hlost, (hgivenUp _ hlost).1⟩

end Project

end ServiceScaffold
