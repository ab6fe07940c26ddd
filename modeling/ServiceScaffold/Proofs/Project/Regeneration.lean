import ServiceScaffold.Proofs.FileTree.Links
import ServiceScaffold.Proofs.Project.Failure

/-! # A generation that fails where one succeeded

The module is written in any case, so a generation that fails replaces a module that lists controllers
by one that lists nothing. The controllers stay, and nothing imports them any more.
-/

namespace ServiceScaffold

open FileTree

namespace Permit

/-- What is at this place stays or becomes this text. -/
def rewrites (spot : Location) (text : Text) : Permit := fun place old new =>
  place = spot → old = none ∨ new = some (.file (.text text))

theorem transitive_rewrites (spot : Location) (text : Text) : (rewrites spot text).Transitive := by
  intro place first second third hfirst hsecond hplace
  rcases hfirst hplace with hnone | hwritten
  · exact Or.inl hnone
  · refine Or.inr ((hsecond hplace).resolve_left ?_)
    simp [hwritten]

end Permit

/-! ## What is still found -/

section

variable {tree other : FileTree} {place location : Location} {path : Path}

theorem FileTree.extends_erase (tree : FileTree) (location : Location) :
    Extends (tree.erase location) tree := by
  refine ⟨rfl, fun place entry hentry => ?_⟩
  by_cases hplace : place = location
  · subst hplace
    by_cases hroot : place = []
    · subst hroot
      exact hentry
    · cases (entry?_erase hroot).symm.trans hentry
  · exact (entry?_erase_of_ne hplace).symm.trans hentry

theorem Change.keeps_extends_removeDir (path : Path) :
    (Change.removeDir path).Keeps fun tree => Extends tree other :=
  Change.keeps_removeDir_of_erase (fun tree location hextends _ =>
    (extends_erase tree location).trans hextends) path

theorem FileTree.Grounded.put (hplace : tree.Grounded place) (hvacant : tree.entry? location = none) :
    (tree.put location .dir).Grounded place := by
  intro front hfront
  have hroot : location ≠ [] := by
    rintro rfl
    cases hvacant
  rw [entry?_put hroot]
  split
  · rfl
  · exact hplace front hfront

theorem Change.keeps_grounded_makeDirAll (path : Path) :
    (Change.makeDirAll path).Keeps fun tree => tree.Grounded tree.workingDir :=
  Change.keeps_makeLineage fun upper _ =>
    Change.keeps_makeDir (fun _ _ hground hvacant => hground.put hvacant) upper

end

namespace Project

variable {host : Host} {settings : Settings} {options : ProjectOptions} {document text : Text}
variable {failure : Failure} {world staged failed after : World} {report : Report}
variable {contents : ModuleContents} {base : FileTree}

/-- Links or not, what is read through the module's path at the end of a run is its text. -/
theorem eq_of_read_module (hworking : world.tree.Grounded world.tree.workingDir)
    (hok : finish options contents world = .ok () after)
    (hread : after.tree.read (modulePath options) = .ok text) :
    text = serviceModule options.serviceClass contents.controllers contents.providers := by
  obtain ⟨written, first, hwrite, hok⟩ := Run.bind_eq_ok_iff.mp hok
  obtain ⟨model, second, hmodel, hok⟩ := Run.bind_eq_ok_iff.mp hok
  obtain ⟨services, third, hservices, hok⟩ := Run.bind_eq_ok_iff.mp hok
  cases hok
  rcases Run.writeUnlessThere_cases hwrite with ⟨-, -, hforce, -⟩ |
    ⟨-, -, middle, hparent, hnone, hfile⟩
  · cases hforce
  have hmiddle : middle.Grounded middle.workingDir := by
    cases hpath : Path.parent? (modulePath options) with
    | some parent =>
        have hlast := Change.keeps_grounded_makeDirAll parent world.tree hworking
        rwa [hparent parent hpath] at hlast
    | none => rwa [hnone hpath]
  obtain ⟨location, hfind⟩ := find_of_writeFile hmiddle hfile
  -- what is found in the end was found before the directories were removed
  have hremove (path : Path) : (Run.removeDirIfEmpty path).Keeps fun tree => Extends tree first.tree :=
    Run.keeps_removeDirIfEmpty (Change.keeps_extends_removeDir path)
  have hextends := (hremove _).of_ok hservices ((hremove _).of_ok hmodel (Extends.refl _))
  obtain ⟨place, hlast⟩ := read_eq_ok_iff.mp hread
  have hfound := find_extends hextends hlast
  rw [hfind] at hfound
  cases hfound
  rfl

theorem finish_rewrites (hfault : options.fault? = none) (contents : ModuleContents) :
    (finish options contents).Keeps (Confined (.rewrites (base.placeOf (modulePath options))
      (serviceModule options.serviceClass contents.controllers contents.providers)) base) := by
  have htrans := Permit.transitive_rewrites (base.placeOf (modulePath options))
    (serviceModule options.serviceClass contents.controllers contents.providers)
  have hremove {path : Path} (hpath : path ∈ removedDirs options) :
      (Run.removeDirIfEmpty path).Keeps (Confined (.rewrites (base.placeOf (modulePath options))
        (serviceModule options.serviceClass contents.controllers contents.providers)) base) :=
    Run.keeps_removeDirIfEmpty (Change.confined_of_removesDir htrans fun _ _ _ hplace =>
      absurd hplace.symm (modulePath_ne_removedDir hfault base hpath))
  refine (Run.keeps_writeUnlessThere (fun parent _ => ?_) ?_).bind fun _ =>
    (hremove (by simp [removedDirs])).bind fun _ =>
      (hremove (by simp [removedDirs])).bind fun _ => Run.keeps_tell _
  · exact Change.confined_of_creates htrans fun _ _ _ _ _ _ => Or.inl rfl
  · exact Change.confined_of_writes htrans fun _ _ _ => Or.inr rfl

/-! ## The law of a regeneration -/

/-- Where the generation failed and the run succeeds, the module lists nothing, whatever it listed
before: that is what stands where its path leads, and what is read through the path, links or not. If
the run fails too, in a plain tree the module is as the generation left it or lists nothing. -/
theorem scaffold_rewrites_module (hdocument : options.document? = some document)
    (hprepare : prepare options world = .ok () staged)
    (hfailure : generateFromDocument host settings options document staged = .error failure failed) :
    (∀ report after, scaffold host settings options world = .ok report after →
      report.openApiFailure? = some failure ∧ Installed options .empty failed.tree after.tree ∧
      (failed.tree.Grounded failed.tree.workingDir →
        ∀ text, after.tree.read (modulePath options) = .ok text →
          text = serviceModule options.serviceClass [] [])) ∧
    (failed.tree.Plain → ∀ content,
      failed.tree.entry? (failed.tree.placeOf (modulePath options)) = some (.file content) →
      (lastState (scaffold host settings options world)).tree.entry?
          (failed.tree.placeOf (modulePath options)) = some (.file content) ∨
        (lastState (scaffold host settings options world)).tree.entry?
          (failed.tree.placeOf (modulePath options)) =
            some (.file (.text (serviceModule options.serviceClass [] [])))) := by
  have hrun := scaffold_of_failure hdocument hprepare hfailure
  have hfault := fault?_of_prepare_ok hprepare
  refine ⟨fun report after hok => ?_, fun hplain content hfile => ?_⟩
  · rw [hrun] at hok
    split at hok
    next hfinish =>
      cases hok
      have hinstalled : Installed options .empty (failed.reporting failure).tree after.tree :=
        installed_of_finish hfinish
      refine ⟨rfl, hinstalled, fun hworking text hread => ?_⟩
      have hreporting : (failed.reporting failure).tree.Grounded
        (failed.reporting failure).tree.workingDir := hworking
      exact eq_of_read_module hreporting hfinish hread
    next => cases hok
  · have hlast : (lastState (scaffold host settings options world)).tree =
        (lastState (finish options .empty (failed.reporting failure))).tree := by
      rw [hrun]
      cases finish options .empty (failed.reporting failure) <;> rfl
    rw [hlast]
    have hfinished : Confined (.rewrites (failed.tree.placeOf (modulePath options))
        (serviceModule options.serviceClass [] [])) failed.tree
        (lastState (finish options .empty (failed.reporting failure))).tree :=
      finish_rewrites hfault .empty (failed.reporting failure) (.refl hplain)
    rcases hfinished.entries (failed.tree.placeOf (modulePath options)) with hsame | hrewritten
    · exact Or.inl (hsame.trans hfile)
    · refine Or.inr ((hrewritten rfl).resolve_left ?_)
      simp [hfile]

/-- The small tree with a module. -/
def registeredTree : FileTree :=
  smallTree.put ["a-s", "src", "modules", "s", "s.module.ts"] (.file (.text "export class SModule"))

theorem scaffold_rewrites_module_smallProject :
    ∃ (report : Report) (after : World),
      registeredTree.read "a-s/src/modules/s/s.module.ts" = .ok "export class SModule" ∧
      scaffold idleHost {} (smallProjectOf "d.json") (.ofTree registeredTree) = .ok report after ∧
      report.openApiFailure? = some (.readDocument "d.json" .notFound) ∧
      after.tree.read (modulePath (smallProjectOf "d.json")) = .ok (serviceModule "S" [] []) := by
  have hrefused : Run.endsIn (fun outcome tree => match outcome with
      | .error failure => decide (failure = .readDocument "d.json" .notFound) &&
          decide (tree.workingDir = [])
      | .ok _ => false)
      ((prepare (smallProjectOf "d.json") >>= fun _ =>
        Run.attempt (OpenApi.preflight idleHost.wording "d.json")) (.ofTree registeredTree)) = true := by
    decide +kernel
  have hends : Run.endsIn (fun _ tree => (match tree.read (modulePath (smallProjectOf "d.json")) with
      | .ok _ => true
      | .error _ => false)) (scaffold idleHost {} (smallProjectOf "d.json") (.ofTree registeredTree)) =
        true := by
    decide +kernel
  obtain ⟨outcome, failed, hrun, houtcome⟩ := Run.exists_ok_of_endsIn hrefused
  obtain ⟨⟨⟩, staged, hprepare, hattempt⟩ := Run.bind_eq_ok_iff.mp hrun
  obtain ⟨report, after, hok, hreadable⟩ := Run.exists_ok_of_endsIn hends
  cases outcome with
  | ok => cases houtcome
  | error failure =>
      rw [Bool.and_eq_true, decide_eq_true_eq, decide_eq_true_eq] at houtcome
      obtain ⟨rfl, hworking⟩ := houtcome
      have hpreflight := Run.run_of_attempt_error hattempt
      obtain ⟨hmodule, -⟩ := scaffold_rewrites_module rfl hprepare
        (generateFromDocument_of_refused hpreflight {} (smallProjectOf "d.json"))
      obtain ⟨hreport, -, hread⟩ := hmodule report after hok
      refine ⟨report, after, by decide +kernel, hok, hreport, ?_⟩
      have hground : failed.tree.Grounded failed.tree.workingDir := by
        rw [hworking]
        exact grounded_root failed.tree
      cases htext : after.tree.read (modulePath (smallProjectOf "d.json")) with
      | error fault =>
          rw [htext] at hreadable
          cases hreadable
      | ok text =>
          rw [hread hground text htext]
          rfl

/-- A controller that was registered and is so no more after a generation that failed, though it is still
there. -/
theorem exists_unregistered :
    (smallProject ".").force = false ∧ ∃ report between failed after,
      scaffold petHost {} (smallProject ".") (.ofTree ⟨[], []⟩) = .ok report between ∧
      report.openApiFailure? = none ∧
      scaffold (failingHost []) {} (smallProject ".") between = .ok failed after ∧
      failed.openApiFailure? = some (.generator (.code 3)) ∧
      between.tree.read "a-s/src/modules/s/s.module.ts" =
        .ok (serviceModule "S" [⟨"PetController", "./controllers/pet.controller"⟩]
          [⟨"PetService", "./services/pet.service"⟩]) ∧
      after.tree.read "a-s/src/modules/s/s.module.ts" = .ok (serviceModule "S" [] []) ∧
      after.tree.isFile "a-s/src/modules/s/controllers/pet.controller.ts" = true := by
  refine ⟨rfl, ?_⟩
  have hends : Run.inTurnEndIn (fun report between failed tree =>
      report.openApiFailure? = none ∧ failed.openApiFailure? = some (.generator (.code 3)) ∧
      between.read "a-s/src/modules/s/s.module.ts" =
        .ok (serviceModule "S" [⟨"PetController", "./controllers/pet.controller"⟩]
          [⟨"PetService", "./services/pet.service"⟩]) ∧
      tree.read "a-s/src/modules/s/s.module.ts" = .ok (serviceModule "S" [] []) ∧
      tree.isFile "a-s/src/modules/s/controllers/pet.controller.ts" = true)
      (scaffold petHost {} (smallProject ".")) (scaffold (failingHost []) {} (smallProject "."))
      (.ofTree ⟨[], []⟩) = true := by
    decide +kernel
  obtain ⟨report, between, failed, after, hreport, hfailed, hchecked⟩ :=
    Run.exists_ok_of_inTurnEndIn hends
  obtain ⟨hsuccess, hfailure, hbefore, hafter, hthere⟩ := of_decide_eq_true hchecked
  exact ⟨report, between, failed, after, hreport, hsuccess, hfailed, hfailure, hbefore, hafter, hthere⟩

end Project

end ServiceScaffold
