import ServiceScaffold.Proofs.FileTree.Reach
import ServiceScaffold.Proofs.Path.Tidy
import ServiceScaffold.Proofs.Run.Step
import ServiceScaffold.Proofs.Settings.Reader
import ServiceScaffold.Settings.Lookup

/-! # Settings of a run

A run has at most two settings files to choose from, and the first of them that is there decides: its
settings are those of the run, and if it cannot be read or is no settings file the run stops. No run goes
on to the second file, or to the defaults, once the first is there.
-/

namespace ServiceScaffold

/-! ## Documents and their directories -/

namespace Path

/-- Only the empty path and paths of the root have no parent. -/
theorem root_of_parent?_eq_none {path : Path} (hparent : parent? path = none) :
    path = [] ∨ isAbsolute path = true := by
  cases habsolute : isAbsolute path with
  | true => exact Or.inr rfl
  | false =>
      have hkept : withoutIdleEnd path (segments path) = [] := by
        unfold parent? at hparent
        split at hparent
        next hnil => exact hnil
        next => cases hparent
      obtain ⟨idle, hparts, hidle, -⟩ := withoutIdleEnd_cases path (segments path)
      rw [hkept, List.nil_append] at hparts
      have htext := eq_intercalate_segments path
      rw [habsolute, hparts] at htext
      cases idle with
      | nil => exact Or.inl htext
      | cons first rest =>
          -- a `.` in front would have been kept
          have hfirst : first = [] := by
            have hdrop : (segments path).reverse.dropWhile isIdle = [] :=
              List.dropWhile_eq_nil_iff.mpr fun part hpart =>
                hidle part (hparts ▸ List.mem_reverse.mp hpart)
            rw [withoutIdleEnd, hdrop, hparts, List.reverse_nil] at hkept
            have hhere : first ≠ "." := by
              rintro rfl
              rw [habsolute] at hkept
              cases hkept
            have hidle := hidle first List.mem_cons_self
            rw [isIdle, decide_eq_false hhere, Bool.or_false] at hidle
            exact List.isEmpty_iff.mp hidle
          cases rest with
          | nil => exact Or.inl (by simpa [hfirst] using htext)
          | cons second rest =>
              rw [htext, hfirst] at habsolute
              cases habsolute

end Path

namespace FileTree

variable {tree : FileTree}

/-- Steps that lead nowhere end where they start. -/
theorem walkWith_here {goal : Goal} {onLink : Location → List Step → Except Fault Spot} {place : Location}
    {steps : List Step} (hsteps : ∀ step ∈ steps, step = .here ∨ step = .close) :
    walkWith tree goal onLink place steps = walkWith tree goal onLink place [] := by
  induction steps with
  | nil => rfl
  | cons step rest ih =>
      obtain ⟨hstep, hrest⟩ := List.forall_mem_cons.mp hsteps
      rcases hstep with rfl | rfl <;> exact ih hrest

/-- A file stands in a directory, and so its path has a parent. -/
theorem exists_parent?_of_isFile {path : Path} (hfile : tree.isFile path = true) :
    ∃ dir, Path.parent? path = some dir := by
  by_contra hnone
  have hparent : Path.parent? path = none := Option.eq_none_iff_forall_ne_some.mpr (not_exists.mp hnone)
  obtain ⟨location, content, hfind⟩ := isFile_iff.mp hfile
  obtain ⟨haccept, hwalk⟩ := spot_eq_ok_iff.mp (find_eq_ok_iff.mp hfind)
  obtain ⟨onLink, heq⟩ := exists_walk_eq tree .target
  have hsteps : ∀ step ∈ path.steps ++ path.ending, step = .here ∨ step = .close := by
    intro step hstep
    rcases List.mem_append.mp hstep with hstep | hstep
    · exact Or.inl (Path.here_of_parent?_eq_none hparent step hstep)
    · unfold Path.ending at hstep
      split at hstep
      · exact Or.inr (List.mem_singleton.mp hstep)
      · cases hstep
  rw [heq, walkWith_here hsteps] at hwalk
  obtain ⟨hspot, -⟩ := walkWith_nil.mp hwalk
  rcases Path.root_of_parent?_eq_none hparent with rfl | habsolute
  · cases haccept.ne_nil
  · -- the root is a directory
    rw [startOf, if_pos habsolute] at hspot
    cases hspot

end FileTree

namespace Settings

variable {wording : ParserWording} {tree : FileTree} {path : Path} {given document : Option Path}
variable {world : World}

/-! ## Candidates -/

/-- The settings file beside a document, if that is a file. -/
def beside? (tree : FileTree) (document : Path) : Option Path :=
  if tree.isFile document then
    (Path.parent? document).map fun dir => Path.join dir settingsFileName
  else none

/-- The settings files that a run may take, the one that it was told to before the one beside its
document. -/
def candidates (tree : FileTree) (given document : Option Path) : List Path :=
  given.toList ++ (document.bind (beside? tree)).toList

/-- The world after the search: a file that was told and is not there is logged, and the one that was
found. -/
def searched (world : World) (given found : Option Path) : World :=
  { world with
    logged := world.logged ++
      ((given.toList.filter fun path => !world.tree.holds path).map .settingsMissing ++
        found.toList.map .settingsLoading) }

/-- The file at a path gives settings: the defaults, with exactly the ones replaced that it says something
of. -/
def FileGives (tree : FileTree) (path : Path) (settings : Settings) : Prop :=
  ∃ content table, tree.read path = .ok content ∧ Toml.read? content = some table ∧
    Replaces {} table settings

/-- Why the file at a path gives no settings. -/
inductive FileFails (wording : ParserWording) (tree : FileTree) (path : Path) : Failure → Prop
  | unreadable {fault : Fault} (hread : tree.read path = .error fault) :
    FileFails wording tree path (.readSettings path fault)
  | invalid {content : Text} (hread : tree.read path = .ok content)
    (hnone : ∀ table, Toml.read? content = some table → ∀ settings, ¬ Replaces {} table settings) :
    FileFails wording tree path (.parseSettings path (wording.settings content))

theorem besideDocument?_eq (tree : FileTree) (document : Path) :
    besideDocument? tree document = (beside? tree document).toList.find? tree.holds := by
  unfold besideDocument? beside?
  split
  next =>
    cases Path.parent? document with
    | none => rfl
    | some dir => exact List.find?_singleton.symm
  next => rfl

theorem bind_besideDocument?_eq (tree : FileTree) (document : Option Path) :
    document.bind (besideDocument? tree) = (document.bind (beside? tree)).toList.find? tree.holds := by
  cases document with
  | none => rfl
  | some document => exact besideDocument?_eq tree document

/-- The search ends with the first candidate that is there. -/
theorem resolve_apply (given document : Option Path) (world : World) :
    resolve given document world =
      .ok ((candidates world.tree given document).find? world.tree.holds) (searched world given none) := by
  unfold resolve
  rw [Run.bind_tree, bind_besideDocument?_eq]
  cases given with
  | none =>
      have hquiet : searched world none none = world := by
        rw [searched]
        exact congrArg (World.mk world.tree world.printed) (List.append_nil _)
      rw [hquiet]
      rfl
  | some path =>
      dsimp only
      cases hholds : world.tree.holds path with
      | true =>
          have hfirst : (candidates world.tree (some path) document).find? world.tree.holds = some path :=
            List.find?_cons_of_pos hholds
          have hquiet : searched world (some path) none = world := by
            simp [searched, hholds]
          rw [if_pos rfl, hfirst, hquiet]
          rfl
      | false =>
          have hlater : (candidates world.tree (some path) document).find? world.tree.holds =
              (document.bind (beside? world.tree)).toList.find? world.tree.holds :=
            List.find?_cons_of_neg (by simp [hholds])
          have hlog : Run.log (.settingsMissing path) world = .ok () (searched world (some path) none) := by
            simp [Run.log, searched, hholds]
          rw [if_neg Bool.false_ne_true, hlater]
          exact Run.bind_of_ok hlog _

/-! ## The file that was found -/

theorem load_of_unreadable {fault : Fault} (hholds : world.tree.holds path = true)
    (hread : world.tree.read path = .error fault) :
    load wording path world = .error (.readSettings path fault) world := by
  unfold load
  rw [Run.bind_tree, if_pos hholds]
  exact Run.bind_of_error (Run.look_of_error _ hread) _

theorem load_of_read (wording : ParserWording) {content : Text} (hholds : world.tree.holds path = true)
    (hread : world.tree.read path = .ok content) :
    load wording path world =
      match read? content with
      | some settings => .ok (some settings) world
      | none => .error (.parseSettings path (wording.settings content)) world := by
  unfold load
  rw [Run.bind_tree, if_pos hholds]
  refine (Run.bind_of_ok (Run.look_eq_ok_iff.mpr ⟨hread, rfl⟩) _).trans ?_
  cases read? content with
  | none => rfl
  | some settings => rfl

theorem read?_eq_some_iff {content : Text} {settings : Settings} : read? content = some settings ↔
    ∃ table, Toml.read? content = some table ∧ Replaces {} table settings := by
  simp only [read?, Option.bind_eq_some_iff, ofTable?_eq_some_iff]

theorem effective_of_none (hfound : (candidates world.tree given document).find? world.tree.holds = none) :
    effective wording given document world = .ok {} (searched world given none) := by
  unfold effective
  refine (Run.bind_of_ok (resolve_apply given document world) _).trans ?_
  rw [hfound]
  rfl

/-- Once a settings file is found, only loading it is left. -/
theorem effective_of_some
    (hfound : (candidates world.tree given document).find? world.tree.holds = some path) :
    effective wording given document world =
      (load wording path >>= fun settings? => pure (settings?.getD {})) (searched world given (some path)) := by
  have hlog : Run.log (.settingsLoading path) (searched world given none) =
      .ok () (searched world given (some path)) := by
    rw [Run.log, searched, searched, List.append_assoc, List.append_assoc]
    rfl
  unfold effective
  refine (Run.bind_of_ok (resolve_apply given document world) _).trans ?_
  rw [hfound]
  exact Run.bind_of_ok hlog _

theorem fileGives_of_read? {content : Text} {settings : Settings} (hread : tree.read path = .ok content)
    (hsettings : read? content = some settings) : FileGives tree path settings := by
  obtain ⟨table, htable, hreplaces⟩ := read?_eq_some_iff.mp hsettings
  exact ⟨content, table, hread, htable, hreplaces⟩

theorem fileFails_of_read? {content : Text} (hread : tree.read path = .ok content)
    (hnone : read? content = none) :
    FileFails wording tree path (.parseSettings path (wording.settings content)) := by
  refine .invalid hread fun table htable settings hreplaces => ?_
  cases hnone.symm.trans (read?_eq_some_iff.mpr ⟨table, htable, hreplaces⟩)

theorem gives_or_fails (wording : ParserWording) (tree : FileTree) (path : Path) :
    (∃ settings, FileGives tree path settings) ∨ ∃ failure, FileFails wording tree path failure := by
  cases hread : tree.read path with
  | error fault => exact Or.inr ⟨_, .unreadable hread⟩
  | ok content =>
      cases hsettings : read? content with
      | some settings => exact Or.inl ⟨settings, fileGives_of_read? hread hsettings⟩
      | none => exact Or.inr ⟨_, fileFails_of_read? hread hsettings⟩

theorem effective_of_gives {settings : Settings}
    (hfound : (candidates world.tree given document).find? world.tree.holds = some path)
    (hgives : FileGives world.tree path settings) :
    effective wording given document world = .ok settings (searched world given (some path)) := by
  obtain ⟨content, table, hread, htable, hreplaces⟩ := hgives
  have hholds : (searched world given (some path)).tree.holds path = true := List.find?_some hfound
  have hload := load_of_read wording hholds hread
  rw [read?_eq_some_iff.mpr ⟨table, htable, hreplaces⟩] at hload
  rw [effective_of_some hfound, Run.bind_of_ok hload]
  rfl

theorem effective_of_fails {failure : Failure}
    (hfound : (candidates world.tree given document).find? world.tree.holds = some path)
    (hfails : FileFails wording world.tree path failure) :
    effective wording given document world = .error failure (searched world given (some path)) := by
  rw [effective_of_some hfound]
  refine Run.bind_of_error ?_ _
  have hholds : (searched world given (some path)).tree.holds path = true := List.find?_some hfound
  cases hfails with
  | unreadable hread => exact load_of_unreadable hholds hread
  | @invalid content hread hnone =>
      have hsettings : read? content = none := by
        refine Option.eq_none_iff_forall_ne_some.mpr fun settings hsome => ?_
        obtain ⟨table, htable, hreplaces⟩ := read?_eq_some_iff.mp hsome
        exact hnone table htable settings hreplaces
      rw [load_of_read wording hholds hread, hsettings]

/-- The settings of a run are decided by the first candidate that is there: the file that the run was
told to, or else the one in the directory of its document, if that is a file. Without any the settings
are the defaults; otherwise they are what the file gives, and if it gives none the run fails, whatever
else is there. -/
theorem effective_exact (wording : ParserWording) (given document : Option Path) (world : World) :
    (∀ path, document = some path → world.tree.isFile path = true →
      ∃ dir, Path.parent? path = some dir ∧
        candidates world.tree given document = given.toList ++ [Path.join dir "nestgen.toml"]) ∧
    ((∀ path, document = some path → world.tree.isFile path = false) →
      candidates world.tree given document = given.toList) ∧
    match (candidates world.tree given document).find? world.tree.holds with
    | none => effective wording given document world = .ok {} (searched world given none)
    | some path =>
      (∀ settings after, effective wording given document world = .ok settings after ↔
        after = searched world given (some path) ∧ FileGives world.tree path settings) ∧
      ∀ failure after, effective wording given document world = .error failure after ↔
        after = searched world given (some path) ∧ FileFails wording world.tree path failure := by
  refine ⟨?_, ?_, ?_⟩
  · rintro path rfl hfile
    obtain ⟨dir, hdir⟩ := FileTree.exists_parent?_of_isFile hfile
    refine ⟨dir, hdir, ?_⟩
    rw [candidates, Option.bind_some, beside?, if_pos hfile, hdir]
    rfl
  · intro hnone
    cases document with
    | none => exact List.append_nil _
    | some path =>
        rw [candidates, Option.bind_some, beside?, hnone path rfl]
        exact List.append_nil _
  · cases hfound : (candidates world.tree given document).find? world.tree.holds with
    | none => exact effective_of_none hfound
    | some path =>
        refine ⟨fun settings after => ⟨fun hok => ?_, ?_⟩, fun failure after => ⟨fun herror => ?_, ?_⟩⟩
        · rcases gives_or_fails wording world.tree path with ⟨settings, hgives⟩ | ⟨failure, hfails⟩
          · cases (effective_of_gives hfound hgives).symm.trans hok
            exact ⟨rfl, hgives⟩
          · cases (effective_of_fails hfound hfails).symm.trans hok
        · rintro ⟨rfl, hgives⟩
          exact effective_of_gives hfound hgives
        · rcases gives_or_fails wording world.tree path with ⟨settings, hgives⟩ | ⟨cause, hfails⟩
          · cases (effective_of_gives hfound hgives).symm.trans herror
          · cases (effective_of_fails hfound hfails).symm.trans herror
            exact ⟨rfl, hfails⟩
        · rintro ⟨rfl, hfails⟩
          exact effective_of_fails hfound hfails

/-- A document with a settings file beside it that says one thing, and a file that is no settings file. -/
def petStore : FileTree :=
  ⟨[], [(["custom.toml"], .file (.text "[services")), (["docs"], .dir),
    (["docs", "nestgen.toml"], .file (.text "[services]\nmarker = \".svc\"\n")),
    (["docs", "pets.yaml"], .file (.text "openapi: 3.0.0"))]⟩

theorem effective_exact_petStore :
    petStore.isFile "docs/pets.yaml" = true ∧
      candidates petStore (some "old.toml") (some "docs/pets.yaml") = ["old.toml", "docs/nestgen.toml"] ∧
      FileGives petStore "docs/nestgen.toml" { services := { marker := ".svc" } } ∧
      effective .plain (some "old.toml") (some "docs/pets.yaml") (.ofTree petStore) =
        .ok { services := { marker := ".svc" } }
          ⟨petStore, [], [.settingsMissing "old.toml", .settingsLoading "docs/nestgen.toml"]⟩ ∧
      effective .plain (some "custom.toml") (some "docs/pets.yaml") (.ofTree petStore) =
        .error (.parseSettings "custom.toml" (ParserWording.plain.settings "[services"))
          ⟨petStore, [], [.settingsLoading "custom.toml"]⟩ := by
  have hfile : petStore.isFile "docs/pets.yaml" = true := by decide +kernel
  have hcontent : petStore.read "docs/nestgen.toml" = .ok "[services]\nmarker = \".svc\"\n".toList := by
    decide +kernel
  have hgives : FileGives petStore "docs/nestgen.toml" { services := { marker := ".svc" } } :=
    fileGives_of_read? hcontent (by decide +kernel)
  have hcustom : petStore.read "custom.toml" = .ok "[services".toList := by decide +kernel
  have hfails : FileFails .plain petStore "custom.toml"
      (.parseSettings "custom.toml" (ParserWording.plain.settings "[services")) :=
    fileFails_of_read? hcustom (by decide +kernel)
  -- the first run falls back to the file beside the document, the second one stops
  have hbeside : (candidates (World.ofTree petStore).tree (some "old.toml") (some "docs/pets.yaml")).find?
      (World.ofTree petStore).tree.holds = some "docs/nestgen.toml".toList := by decide +kernel
  have htold : (candidates (World.ofTree petStore).tree (some "custom.toml") (some "docs/pets.yaml")).find?
      (World.ofTree petStore).tree.holds = some "custom.toml".toList := by decide +kernel
  obtain ⟨hcandidates, -, hfallback⟩ :=
    effective_exact .plain (some "old.toml") (some "docs/pets.yaml") (.ofTree petStore)
  obtain ⟨-, -, hstops⟩ := effective_exact .plain (some "custom.toml") (some "docs/pets.yaml") (.ofTree petStore)
  rw [hbeside] at hfallback
  rw [htold] at hstops
  refine ⟨hfile, ?_, hgives, (hfallback.1 _ _).mpr ⟨by decide +kernel, hgives⟩,
    (hstops.2 _ _).mpr ⟨by decide +kernel, hfails⟩⟩
  obtain ⟨dir, hdir, heq⟩ := hcandidates _ rfl hfile
  have hdocs : Path.parent? "docs/pets.yaml" = some "docs".toList := by decide
  obtain rfl := Option.some.inj (hdir.symm.trans hdocs)
  exact heq

end Settings

end ServiceScaffold
