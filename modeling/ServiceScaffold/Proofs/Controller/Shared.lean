import ServiceScaffold.Proofs.Controller.Effect
import ServiceScaffold.Proofs.Service.Discovery

/-! # Services that share a controller

The first marker of a service's name is removed wherever it stands, so two services can have one
controller file. Of the discovered services that share one, the last by name has its controller on
disk, and the controllers of the others are lost.
-/

namespace ServiceScaffold.Controller

variable {serviceDir controllerDir : Path} {filter : ServiceFilter} {names : List Text}
variable {targets : List Path} {files : List ServiceFile} {file other : ServiceFile}
variable {world found after : World}

/-- With one controller file and their markers at the same place, two ordinary names are one. -/
theorem eq_of_controllerFile_eq {front back front' back' : Text}
    (hname : file.fileName = file.logicalName ++ sourceSuffix)
    (hother : other.fileName = other.logicalName ++ sourceSuffix)
    (hfirst : Text.FirstOccurrence serviceMarker file.logicalName front back)
    (hsecond : Text.FirstOccurrence serviceMarker other.logicalName front' back')
    (hsame : file.controllerFile = other.controllerFile) (hlength : front.length = front'.length) :
    file = other := by
  rw [ServiceFile.controllerFile_eq hfirst, ServiceFile.controllerFile_eq hsecond] at hsame
  obtain ⟨rfl, rfl⟩ := List.append_inj (List.append_cancel_right hsame) hlength
  have hlogical := hfirst.text_eq.trans hsecond.text_eq.symm
  cases file
  cases other
  simp_all

/-- Of services in the order of their names, the last one that has a controller file decides what it
holds. -/
theorem Effect.hasController_of_ble {before after : FileTree}
    (heffect : Effect serviceDir controllerDir before after files)
    (hparsed : names.map ServiceFile.ofPath? = files.map some)
    (hsorted : names.Pairwise fun first second => Text.ble first second = true)
    (hfile : file ∈ files)
    (hlast : ∀ other ∈ files, other.controllerFile = file.controllerFile →
      Text.ble other.fileName file.fileName = true) :
    HasController serviceDir controllerDir before after file := by
  obtain ⟨earlier, other, later, hfiles, hsame, hlater, hother⟩ := heffect.exists_hasController hfile
  have hmem : other ∈ files := by simp [hfiles]
  -- the file itself does not come later, so it is not after the one that was found
  have hble : Text.ble file.fileName other.fileName = true := by
    rw [← ServiceFile.map_fileName hparsed, List.pairwise_map, hfiles] at hsorted
    rw [hfiles] at hfile
    rcases List.mem_append.mp hfile with hearlier | hrest
    · exact (List.pairwise_append.mp hsorted).2.2 file hearlier other List.mem_cons_self
    · rcases List.mem_cons.mp hrest with rfl | hfile
      · exact Text.ble_refl _
      · exact absurd rfl (hlater file hfile)
  have hname := Text.ble_antisymm hble (hlast other hmem hsame)
  have hread := (ServiceFile.ofPath?_of_mem hparsed hfile).2
  rw [hname, (ServiceFile.ofPath?_of_mem hparsed hmem).2] at hread
  rwa [Option.some.inj hread] at hother

/-- After a batch over discovered services, the name of each of them is what stands around its first
marker, and so is the name of its controller. Services share a controller only if their markers
stand at different places, and then the last by name of those that share one has it. -/
theorem controllers_of_discovered (hplain : world.tree.Plain)
    (hmarker : filter.marker = serviceMarker)
    (hdiscover : filter.discover serviceDir world = .ok names found)
    (hapart : Apart serviceDir controllerDir found.tree (names.filterMap ServiceFile.ofPath?))
    (hok : generateBatch serviceDir controllerDir names found = .ok targets after) :
    ∃ files : List ServiceFile, names.map ServiceFile.ofPath? = files.map some ∧
      targets = files.map (ServiceFile.controllerPath controllerDir) ∧
      (∀ file ∈ files, ∃ front back,
        Text.FirstOccurrence serviceMarker file.logicalName front back ∧
        file.fileName = front ++ serviceMarker ++ back ++ sourceSuffix ∧
        file.controllerFile = front ++ back ++ controllerSuffix ∧
        ∀ other ∈ files, other ≠ file → other.controllerFile = file.controllerFile →
          ∀ front' back', Text.FirstOccurrence serviceMarker other.logicalName front' back' →
            front'.length ≠ front.length) ∧
      ∀ file ∈ files,
        (∀ other ∈ files, other.controllerFile = file.controllerFile →
          Text.ble other.fileName file.fileName = true) →
        HasController serviceDir controllerDir found.tree after.tree file := by
  obtain ⟨rfl, -⟩ := ServiceFilter.discover_eq_ok hdiscover
  have hdiscovered := ServiceFilter.discovered_of_discover hplain hdiscover
  obtain ⟨files, hparsed, htargets, heffect⟩ := effect_of_batch hplain.linkFree hapart hok
  have hname : ∀ file ∈ files, file.fileName = file.logicalName ++ sourceSuffix := by
    intro file hfile
    obtain ⟨hmem, hread⟩ := ServiceFile.ofPath?_of_mem hparsed hfile
    exact ServiceFile.eq_logicalName_append (hdiscovered.ordinary _ hmem) hread
  refine ⟨files, hparsed, htargets, fun file hfile => ?_, fun file hfile hlast => ?_⟩
  · have haccepts := hdiscovered.accepted _ (ServiceFile.ofPath?_of_mem hparsed hfile).1
    rw [hname file hfile] at haccepts
    obtain ⟨front, back, hfirst⟩ := ServiceFilter.exists_firstOccurrence hmarker haccepts
    refine ⟨front, back, hfirst, ?_, ServiceFile.controllerFile_eq hfirst, ?_⟩
    · rw [hname file hfile, hfirst.text_eq]
      simp only [List.append_assoc]
    · intro other hother hne hsame front' back' hsecond hlength
      exact hne (eq_of_controllerFile_eq (hname other hother) (hname file hfile) hsecond hfirst hsame
        hlength)
  · exact heffect.hasController_of_ble hparsed hdiscovered.sorted hfile hlast

theorem controllers_of_discovered_twoServices :
    ∃ names found targets after,
      ({} : ServiceFilter).discover "s" (.ofTree twoServices) = .ok names found ∧
      generateBatch "s" "c" names found = .ok targets after ∧
      ∃ files : List ServiceFile, names.map ServiceFile.ofPath? = files.map some ∧
        ∀ file ∈ files, (∀ other ∈ files, other.controllerFile = file.controllerFile →
          Text.ble other.fileName file.fileName = true) →
          HasController "s" "c" twoServices after.tree file := by
  have hdiscover : Run.endsIn (fun names _ => names = ["a.service.ts".toList, "b.service.ts".toList])
      (({} : ServiceFilter).discover "s" (.ofTree twoServices)) = true := by
    decide +kernel
  obtain ⟨names, found, hdiscover, hnames⟩ := Run.exists_ok_of_endsIn hdiscover
  obtain ⟨rfl, -⟩ := ServiceFilter.discover_eq_ok hdiscover
  obtain rfl := of_decide_eq_true hnames
  have hapart : Apart "s" "c" twoServices
      (List.filterMap ServiceFile.ofPath? ["a.service.ts", "b.service.ts"]) := by
    unfold Apart
    decide +kernel
  have hok : Run.isOk (generateBatch "s" "c" ["a.service.ts", "b.service.ts"]
      (.ofTree twoServices)) = true := by decide +kernel
  obtain ⟨targets, after, hok⟩ := Run.exists_ok_of_isOk hok
  obtain ⟨files, hparsed, -, -, hlast⟩ :=
    controllers_of_discovered (by decide +kernel) rfl hdiscover hapart hok
  exact ⟨_, _, targets, after, hdiscover, hok, files, hparsed, hlast⟩

/-- Two services whose names differ in the place of the marker alone. -/
def servicesOfOneName : FileTree :=
  ⟨[], [(["c"], .dir), (["s"], .dir),
    (["s", "pet.service.v2.ts"], .file (.text "public find(id: string)")),
    (["s", "pet.v2.service.ts"], .file (.text "public list()"))]⟩

/-- A discovered service whose controller is lost to another one with the same controller file. -/
theorem exists_lost_controller :
    ∃ names found targets after first second,
      ({} : ServiceFilter).discover "s" (.ofTree servicesOfOneName) = .ok names found ∧
      generateBatch "s" "c" names found = .ok targets after ∧
      names.map ServiceFile.ofPath? = [some first, some second] ∧ first.fileName ≠ second.fileName ∧
      first.controllerFile = second.controllerFile ∧
      ¬ HasController "s" "c" servicesOfOneName after.tree first := by
  have hdiscover : Run.endsIn
      (fun names _ => names = ["pet.service.v2.ts".toList, "pet.v2.service.ts".toList])
      (({} : ServiceFilter).discover "s" (.ofTree servicesOfOneName)) = true := by
    decide +kernel
  obtain ⟨names, found, hdiscover, hnames⟩ := Run.exists_ok_of_endsIn hdiscover
  obtain ⟨rfl, -⟩ := ServiceFilter.discover_eq_ok hdiscover
  obtain rfl := of_decide_eq_true hnames
  have hlost : Run.endsIn
      (fun _ after => ¬ HasController "s" "c" servicesOfOneName after
        ⟨"pet.service.v2.ts", "pet.service.v2"⟩)
      (generateBatch "s" "c" ["pet.service.v2.ts", "pet.v2.service.ts"]
        (.ofTree servicesOfOneName)) = true := by decide +kernel
  obtain ⟨targets, after, hok, hlost⟩ := Run.exists_ok_of_endsIn hlost
  exact ⟨_, _, targets, after, ⟨"pet.service.v2.ts", "pet.service.v2"⟩,
    ⟨"pet.v2.service.ts", "pet.v2.service"⟩, hdiscover, hok, by decide +kernel, by decide +kernel,
    by decide +kernel, of_decide_eq_true hlost⟩

end ServiceScaffold.Controller
