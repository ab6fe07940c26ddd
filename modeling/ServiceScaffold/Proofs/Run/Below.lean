import ServiceScaffold.Proofs.Run.Files

/-! # What operations below a directory keep

Most of what a run does is to create directories and to write files below one directory. A property
that all such changes keep is kept by a copy into the directory too, whatever the names in the source
are, as long as they are ordinary ones.
-/

namespace ServiceScaffold

open FileTree

/-- Directories are created and files are written below a directory, and the property is kept. -/
structure Change.KeptBelow (base : Path) (holds : FileTree → Prop) : Prop where
  makeDirAll : ∀ {names path upper}, Path.Below base names path → Path.OnWay upper path →
    (Change.makeDirAll upper).Keeps holds
  writeFile : ∀ {names path}, Path.Below base names path → names ≠ [] → ∀ content,
    (Change.writeFile path content).Keeps holds
  copyFile : ∀ {names path}, Path.Below base names path → names ≠ [] → ∀ source,
    (Change.copyFile source path).Keeps holds

variable {base dir path target : Path} {names : List Text} {holds : FileTree → Prop}

/-- Below a directory of the directory the same is done as below the directory. -/
theorem Change.KeptBelow.down (hkept : Change.KeptBelow base holds) (hdir : Path.Below base names dir) :
    Change.KeptBelow dir holds where
  makeDirAll := fun hpath honWay => hkept.makeDirAll (hdir.trans hpath) honWay
  writeFile := fun hpath hnames =>
    hkept.writeFile (hdir.trans hpath) (List.append_ne_nil_of_right_ne_nil _ hnames)
  copyFile := fun hpath hnames =>
    hkept.copyFile (hdir.trans hpath) (List.append_ne_nil_of_right_ne_nil _ hnames)

/-- Changes stay confined if directories may be created inside a directory and on the way to it, and
files may be written inside it. -/
theorem Change.keptBelow_confined {tree : FileTree} {permits : Permit} (htrans : permits.Transitive)
    (hcreates : ∀ current : FileTree, Confined permits tree current → ∀ place,
      current.entry? place = none → tree.Passes base place ∨ tree.placeOf base <+: place →
      permits place none (some .dir))
    (hwrites : ∀ place old content, tree.placeOf base <+: place → place ≠ tree.placeOf base →
      old ≠ some .dir → permits place old (some (.file content))) :
    Change.KeptBelow base (Confined permits tree) := by
  have hinside {names path} (hpath : Path.Below base names path) (hnames : names ≠ []) :
      ∀ old content, old ≠ some .dir → permits (tree.placeOf path) old (some (.file content)) := by
    intro old content hdir
    rw [placeOf_below hpath]
    exact hwrites _ old content (List.prefix_append _ _) (by simpa using hnames) hdir
  refine ⟨fun hpath honWay => ?_, fun hpath hnames => ?_, fun hpath hnames => ?_⟩
  · refine Change.confined_of_creates htrans fun current hconfined place hvacant hpasses =>
      hcreates current hconfined place hvacant ?_
    refine ((hpasses.of_onWay honWay).of_below hpath).imp_right ?_
    rintro ⟨front, -, rfl⟩
    exact List.prefix_append _ _
  · exact fun content => Change.confined_of_writes htrans fun old => hinside hpath hnames old content
  · exact Change.confined_of_copies htrans (hinside hpath hnames)

/-- Neither creating nor writing takes a directory away. -/
theorem Change.keptBelow_sparesDirs (base : Path) (tree : FileTree) :
    Change.KeptBelow base (Confined .sparesDirs tree) :=
  Change.keptBelow_confined Permit.transitive_sparesDirs
    (fun _ _ _ _ _ => by simp [Permit.sparesDirs]) fun _ _ _ _ _ hdir => hdir

/-- What every change keeps is kept below a directory. -/
theorem Change.Kept.below (hkept : Change.Kept holds) : Change.KeptBelow base holds :=
  ⟨fun _ _ => hkept.makeDirAll _, fun _ _ => hkept.writeFile _, fun _ _ _ => hkept.copyFile _ _⟩

namespace Run

/-- The places inside a directory of a plain tree are those of ordinary names. -/
theorem isSegment_of_mem_inside {tree : FileTree} {place : Location} (hplain : tree.Plain)
    {entry : Location × Entry} (hentry : entry ∈ tree.inside place) :
    ∀ name ∈ entry.1, Path.IsSegment name := fun name hname =>
  hplain.names _ (mem_inside_iff.mp hentry).2 name (List.mem_append_right _ hname)

end Run

namespace Change.KeptBelow

variable (hkept : Change.KeptBelow base holds)

include hkept

theorem createDir (hpath : Path.Below base names path) : (Run.createDir path).Keeps holds :=
  Run.keeps_createDir (hkept.makeDirAll hpath (.refl path))

theorem writeUnlessThere (hpath : Path.Below base names path) (hnames : names ≠ []) (content : Text)
    (force : Bool) : (Run.writeUnlessThere path content force).Keeps holds :=
  Run.keeps_writeUnlessThere
    (fun _ hparent => hkept.makeDirAll hpath (Path.onWay_of_parent? hparent))
    (hkept.writeFile hpath hnames _)

theorem copyFileIfThere (hpath : Path.Below base names path) (hnames : names ≠ []) (source : Path) :
    (Run.copyFileIfThere source path).Keeps holds :=
  Run.keeps_copyFileIfThere (hkept.copyFile hpath hnames source)

theorem copyDir (hplain : ∀ tree, holds tree → tree.Plain) (htarget : Path.Below base names target)
    (hnames : names ≠ []) (source : Path) : (Run.copyDir source target).Keeps holds := by
  have hcopy {entry : Location × Entry} (hentry : ∀ name ∈ entry.1, Path.IsSegment name) :
      (Run.copyEntry source target entry).Keeps holds := by
    have hpath : Path.Below base (names ++ entry.1) (Run.copyPath target entry.1) :=
      htarget.join_intercalate hentry
    exact Run.keeps_copyEntry (hkept.makeDirAll hpath (.refl _))
      fun held => hkept.copyFile hpath (List.append_ne_nil_of_left_ne_nil hnames _) held
  exact Run.keeps_copyDir (fun _ => hcopy (List.forall_mem_nil _))
    fun tree htree _ _ hentry => hcopy (Run.isSegment_of_mem_inside (hplain tree htree) hentry)

end Change.KeptBelow

end ServiceScaffold
