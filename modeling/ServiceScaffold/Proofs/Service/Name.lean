import ServiceScaffold.Proofs.Path
import ServiceScaffold.Proofs.Text.Occurrence
import ServiceScaffold.Service.Name

/-! # Names around a service file

Every name around a service file comes from the last name of its path, so none of them leads
anywhere: the file of the controller is an ordinary name.
-/

namespace ServiceScaffold

theorem Text.mem_of_mem_removeFirst {needle text : Text} {c : Char}
    (hmem : c ∈ removeFirst needle text) : c ∈ text := by
  induction text with
  | nil => exact hmem
  | cons d text ih =>
      unfold removeFirst at hmem
      split at hmem
      next tail htail =>
        rw [← List.isPrefixOf?_eq_some_iff_append_eq.mp htail]
        exact List.mem_append_right _ hmem
      next =>
        rcases List.mem_cons.mp hmem with rfl | hmem
        · exact List.mem_cons_self
        · exact List.mem_cons_of_mem _ (ih hmem)

namespace ServiceFile

variable {path : Path} {file other : ServiceFile}

/-- A service file has the last name of its path, which is a non-empty text before the ending. -/
theorem ofPath?_eq_some_iff :
    ofPath? path = some file ↔
      file.fileName = path ∧ Path.fileName? path = some (file.logicalName ++ sourceSuffix) ∧
        file.logicalName ≠ [] := by
  simp only [ofPath?, Option.bind_eq_bind, Option.bind_eq_some_iff, Text.beforeSuffix?,
    List.isSuffixOf?_eq_some_iff_append_eq]
  constructor
  · rintro ⟨base, hbase, logicalName, rfl, hfile⟩
    split at hfile
    · cases hfile
    next hne =>
      cases hfile
      exact ⟨rfl, hbase, by simpa using hne⟩
  · rintro ⟨rfl, hbase, hne⟩
    exact ⟨_, hbase, file.logicalName, rfl, by simp [hne]⟩

theorem fileName_of_ofPath? (hfile : ofPath? path = some file) : file.fileName = path :=
  (ofPath?_eq_some_iff.mp hfile).1

/-- Each of the files that names were read as has its own path among them, and is read off it. -/
theorem ofPath?_of_mem {names : List Path} {files : List ServiceFile}
    (hparsed : names.map ofPath? = files.map some) (hfile : file ∈ files) :
    file.fileName ∈ names ∧ ofPath? file.fileName = some file := by
  obtain ⟨name, hname, hread⟩ := List.mem_map.mp (hparsed ▸ List.mem_map_of_mem hfile)
  rw [fileName_of_ofPath? hread]
  exact ⟨hname, hread⟩

theorem map_fileName {names : List Path} {files : List ServiceFile}
    (hparsed : names.map ofPath? = files.map some) : files.map fileName = names := by
  induction files generalizing names with
  | nil => exact (List.map_eq_nil_iff.mp hparsed).symm
  | cons file files ih =>
      obtain ⟨name, names, rfl, hfile, hrest⟩ := List.map_eq_cons_iff.mp hparsed
      rw [List.map_cons, ih hrest, fileName_of_ofPath? hfile]

theorem filterMap_ofPath? {names : List Path} {files : List ServiceFile}
    (hparsed : names.map ofPath? = files.map some) : names.filterMap ofPath? = files := by
  calc names.filterMap ofPath?
    _ = (names.map ofPath?).filterMap id := by rw [List.filterMap_map]; rfl
    _ = files := by rw [hparsed, List.filterMap_map]; exact List.filterMap_some

theorem isSegment_controllerFile (hfile : ofPath? path = some file) :
    Path.IsSegment file.controllerFile := by
  have hlast := (Path.fileName?_eq_some (ofPath?_eq_some_iff.mp hfile).2.1).1
  refine Path.isSegment_append (fun hmem => hlast.noSeparator ?_) (by decide) (by decide)
  exact List.mem_append_left _ (Text.mem_of_mem_removeFirst hmem)

/-- The last name of an ordinary name is itself. -/
theorem eq_logicalName_append (hname : Path.IsSegment path) (hfile : ofPath? path = some file) :
    path = file.logicalName ++ sourceSuffix := by
  have hlast := (ofPath?_eq_some_iff.mp hfile).2.1
  rw [hname.fileName?_eq] at hlast
  exact Option.some.inj hlast

/-- The marker does not reach into the ending of a source file. -/
theorem marker_infix_of_append {text : Text} (hmarker : serviceMarker <:+: text ++ sourceSuffix) :
    serviceMarker <:+: text := by
  obtain ⟨before, after, heq⟩ := hmarker
  rcases List.append_eq_append_iff.mp heq with ⟨middle, htext, -⟩ | ⟨middle, htext, hsuffix⟩
  · exact ⟨before, middle, htext.symm⟩
  · -- what would reach into the ending has the marker's last letter, which is not in the ending
    rcases List.eq_nil_or_concat middle with rfl | ⟨front, last, rfl⟩
    · exact ⟨before, [], by simpa using htext⟩
    · rw [List.concat_eq_append, ← List.append_assoc] at htext
      have hlast : last = 'e' := by
        have hends := congrArg List.getLast? htext
        rw [List.getLast?_append_of_ne_nil _ (by decide), List.getLast?_concat] at hends
        exact (Option.some.inj hends).symm
      have hmem : last ∈ sourceSuffix := hsuffix ▸ by simp
      rw [hlast] at hmem
      exact absurd hmem (by decide)

theorem controllerFile_eq {front back : Text}
    (hfirst : Text.FirstOccurrence serviceMarker file.logicalName front back) :
    file.controllerFile = front ++ back ++ controllerSuffix := by
  rw [controllerFile, baseName, hfirst.removeFirst_eq]

/-- Two controllers have one file exactly when their services have one base name. -/
theorem controllerFile_inj : file.controllerFile = other.controllerFile ↔
    file.baseName = other.baseName := List.append_left_inj _

end ServiceFile

end ServiceScaffold
