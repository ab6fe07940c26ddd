import ServiceScaffold.Project.Sources
import ServiceScaffold.Proofs.Controller.Effect
import ServiceScaffold.Proofs.FileTree.Plain
import ServiceScaffold.Proofs.Service.Name

/-! # What a controller injects

The controller of a service has the service's class in its constructor, so it can be constructed only
where that class is provided. Which class it is can be read off the text, whatever the service is
called: no name holds a separator, and the first one in the text stands behind the class.
-/

namespace ServiceScaffold

/-! ## Names hold no separator -/

namespace Text

theorem mem_of_mem_splitOn {mark c : Char} {text part : Text} (hpart : part ∈ text.splitOn mark)
    (hc : c ∈ part) : c ∈ text := by
  obtain ⟨before, after, hparts⟩ := List.append_of_mem hpart
  have htext : List.intercalate [mark] (text.splitOn mark) = text := List.intercalate_splitOn mark
  rw [hparts] at htext
  cases before with
  | nil =>
      rw [← htext, List.nil_append, intercalate_cons]
      exact List.mem_append_left _ hc
  | cons first before =>
      rw [← htext, List.cons_append, intercalate_cons]
      refine List.mem_append_right _ (List.mem_flatMap.mpr ⟨part, by simp, ?_⟩)
      exact List.mem_append_right _ hc

theorem toNat_of_ofNat {code : Nat} {c : Char} (hc : Char.ofNat code = c) (hne : c ≠ '\x00') :
    code = c.toNat := by
  by_cases hvalid : code.isValidChar
  · have hcode : Char.ofNat code = Char.ofNatAux code hvalid := dif_pos hvalid
    rw [← hc, hcode]
    rfl
  · exact absurd (hc.symm.trans (dif_neg hvalid)) hne

/-- Upper case makes no separator. -/
theorem separator_notMem_upperChar {c : Char} (hc : c ≠ '/') : '/' ∉ upperChar c := by
  have hcode : c.toNat ≠ 47 := fun hcode => hc (by rw [← Char.ofNat_toNat c, hcode])
  unfold upperChar
  split
  next hascii =>
    have hupper : ∀ code < 128, code ≠ 47 → '/' ≠ (Char.ofNat code).toUpper := by decide +kernel
    rw [List.mem_singleton, ← Char.ofNat_toNat c]
    exact hupper c.toNat hascii hcode
  next hascii =>
    split
    next codes hcodes =>
      have hsequences : ∀ pair ∈ upperSequences, '/' ∉ pair.2.map Char.ofNat := by decide +kernel
      obtain ⟨before, after, htable, -⟩ := List.lookup_eq_some_iff.mp hcodes
      exact hsequences (c.toNat, codes) (by simp [htable])
    next =>
      split
      next run hrun =>
        have hruns : ∀ run ∈ upperRuns, 47 < run.first + run.shift := by decide +kernel
        have hshift := hruns run (List.mem_of_find?_eq_some hrun)
        have hholds := List.find?_some hrun
        simp only [CaseRun.holds, Bool.and_eq_true, decide_eq_true_eq] at hholds
        rw [List.mem_singleton]
        intro hslash
        have heq : (c.toNat + run.shift).toNat = 47 := toNat_of_ofNat hslash.symm (by decide)
        omega
      next => simpa using hc.symm

theorem separator_notMem_capitalize {text : Text} (htext : '/' ∉ text) : '/' ∉ capitalize text := by
  cases text with
  | nil => exact htext
  | cons c rest =>
      rw [List.mem_cons, not_or] at htext
      obtain ⟨hc, hrest⟩ := htext
      rw [capitalize, List.mem_append, not_or]
      exact ⟨separator_notMem_upperChar (Ne.symm hc), hrest⟩

end Text

theorem ServiceFile.separator_notMem_serviceType {path : Path} {file : ServiceFile}
    (hfile : ServiceFile.ofPath? path = some file) : '/' ∉ file.serviceType := by
  have hlast := (Path.fileName?_eq_some (ServiceFile.ofPath?_eq_some_iff.mp hfile).2.1).1
  have hname : '/' ∉ file.logicalName := fun hmem =>
    hlast.noSeparator (List.mem_append_left _ hmem)
  rw [serviceType, List.mem_flatMap]
  rintro ⟨part, hpart, hmem⟩
  refine Text.separator_notMem_capitalize (fun hpartMem => hname ?_) hmem
  exact Text.mem_of_mem_splitOn hpart hpartMem

/-! ## The class in the constructor -/

/-- The text is that of a controller with this class in its constructor. -/
def Injects (text serviceType : Text) : Prop :=
  '/' ∉ serviceType ∧ ∃ controller : Controller, controller.serviceType = serviceType ∧
    text = controller.render

/-- The controller that is made for a service injects the service's class. -/
theorem injects_render {path : Path} {file : ServiceFile} (hfile : ServiceFile.ofPath? path = some file)
    (source : Text) : Injects (Controller.ofSource file source).render file.serviceType :=
  ⟨ServiceFile.separator_notMem_serviceType hfile, _, rfl, rfl⟩

namespace Controller

/-- What stands in front of the class that a controller imports. -/
def importFront : Text :=
  "import \x7b Controller, Get, Post, Body, Query \x7d from '@nestjs/common';\nimport \x7b "

theorem exists_render (controller : Controller) : ∃ rest : Text, controller.render =
    importFront ++ (controller.serviceType ++ (" \x7d from '../services/" ++ rest)) := by
  unfold render
  simp only [List.append_assoc]
  exact ⟨_, rfl⟩

end Controller

/-- A text injects one class at most. -/
theorem Injects.unique {text first second : Text} (hfirst : Injects text first)
    (hsecond : Injects text second) : first = second := by
  -- the first separator stands behind the class
  have htake {serviceType : Text} (hclass : '/' ∉ serviceType) (rest : Text) :
      (serviceType ++ (" \x7d from '../services/" ++ rest)).takeWhile (· ≠ '/') =
        serviceType ++ " \x7d from '.." := by
    have hsplit : serviceType ++ (" \x7d from '../services/" ++ rest) =
        (serviceType ++ " \x7d from '..") ++ ("/services/" ++ rest) := by
      rw [List.append_assoc]
      rfl
    rw [hsplit]
    refine Text.takeWhile_run (fun c hc => decide_eq_true ?_) (by simp)
    rintro rfl
    rcases List.mem_append.mp hc with hc | hc
    · exact hclass hc
    · exact absurd hc (by decide)
  obtain ⟨hclass, controller, rfl, htext⟩ := hfirst
  obtain ⟨hotherClass, other, rfl, hotherText⟩ := hsecond
  obtain ⟨rest, hrest⟩ := controller.exists_render
  obtain ⟨otherRest, hotherRest⟩ := other.exists_render
  rw [htext, hrest, hotherRest] at hotherText
  have hsame := congrArg (List.takeWhile (· ≠ '/')) (List.append_cancel_left hotherText)
  exact List.append_cancel_right ((htake hclass rest).symm.trans (hsame.trans (htake hotherClass otherRest)))

/-- The controller that a project starts with injects nothing. -/
theorem not_injects_starterController (routePrefix className serviceName serviceType : Text) :
    ¬ Injects (Project.starterController routePrefix className serviceName) serviceType := by
  rintro ⟨-, controller, -, htext⟩
  obtain ⟨rest, hrest⟩ := controller.exists_render
  have hrendered : ("import \x7b Controller, Get, Post, B" : Text) <+:
      Project.starterController routePrefix className serviceName := by
    have hfront : ("import \x7b Controller, Get, Post, B" : Text) <+: Controller.importFront := by decide
    rw [htext, hrest]
    exact hfront.trans (List.prefix_append _ _)
  have hstarter : ("import \x7b Controller, Get, Post, P" : Text) <+:
      Project.starterController routePrefix className serviceName := by
    have hline : ("import \x7b Controller, Get, Post, P" : Text) <+:
        "import \x7b Controller, Get, Post, Put, Delete, Body, Param, Query \x7d from '@nestjs/common';" := by
      decide
    rw [Project.starterController, Text.ofLines, List.flatMap_cons, List.append_assoc]
    exact hline.trans (List.prefix_append _ _)
  have hprefix := List.prefix_of_prefix_length_le hrendered hstarter (by decide)
  revert hprefix
  decide

namespace Controller

open FileTree

variable {serviceDir controllerDir : Path} {names : List Path} {file : ServiceFile}
variable {world after : World} {targets : List Path}

/-- After a batch the controller of a service is one that was made for a service of the batch. -/
theorem rendered_of_batch (hplain : world.tree.Plain) (hafter : after.tree.Plain)
    (hapart : Apart serviceDir controllerDir world.tree (names.filterMap ServiceFile.ofPath?))
    (hok : generateBatch serviceDir controllerDir names world = .ok targets after)
    (hfile : file ∈ names.filterMap ServiceFile.ofPath?) :
    ∃ other ∈ names.filterMap ServiceFile.ofPath?, ∃ source,
      after.tree.entry? (after.tree.placeOf (file.controllerPath controllerDir)) =
        some (.file (.text (ofSource other source).render)) := by
  obtain ⟨files, hparsed, -, heffect⟩ := effect_of_batch hplain.linkFree hapart hok
  rw [ServiceFile.filterMap_ofPath? hparsed] at hfile ⊢
  obtain ⟨earlier, other, later, hfiles, hsame, -, source, -, hread⟩ :=
    heffect.exists_hasController hfile
  rw [ServiceFile.controllerPath, hsame] at hread
  exact ⟨other, by simp [hfiles], source, (entry?_of_read hafter.linkFree hread)⟩

end Controller

end ServiceScaffold
