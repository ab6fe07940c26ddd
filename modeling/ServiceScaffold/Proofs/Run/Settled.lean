import ServiceScaffold.Proofs.FileTree.Pruned
import ServiceScaffold.Proofs.Run.Files

/-! # Runs that find their work done

A file that was written, or left as it was found, is settled: the same operation does nothing more. And
whether an empty directory is removed can be read off the tree. So a run over what an earlier one left
can be told step by step.
-/

namespace ServiceScaffold

open FileTree

/-! ## What a run comes to -/

namespace Run

variable {α β : Type} {run : Run α} {next : α → Run β} {before middle after : FileTree} {value : α}

/-- Whatever was printed and logged, the run turns the first tree into the second and ends with the
value. -/
def Leads (run : Run α) (before : FileTree) (value : α) (after : FileTree) : Prop :=
  ∀ world, world.tree = before → ∃ last, run world = .ok value last ∧ last.tree = after

theorem leads_pure (value : α) (tree : FileTree) : (pure value : Run α).Leads tree value tree :=
  fun world htree => ⟨world, rfl, htree⟩

theorem leads_tell (notice : Notice) (tree : FileTree) : (tell notice).Leads tree () tree :=
  fun _ htree => ⟨_, rfl, htree⟩

theorem leads_log (event : Event) (tree : FileTree) : (log event).Leads tree () tree :=
  fun _ htree => ⟨_, rfl, htree⟩

theorem leads_tree (tree : FileTree) : Run.tree.Leads tree tree tree := by
  rintro world rfl
  exact ⟨world, rfl, rfl⟩

theorem leads_change {operation : Change α} (hoperation : operation before = .ok value after)
    (blame : Fault → Failure) : (change blame operation).Leads before value after := by
  rintro world rfl
  exact ⟨_, change_of_ok blame hoperation world.printed world.logged, rfl⟩

theorem leads_look {question : FileTree → Except Fault α} (hquestion : question before = .ok value)
    (blame : Fault → Failure) : (look blame question).Leads before value before := by
  rintro world rfl
  exact ⟨world, look_eq_ok_iff.mpr ⟨hquestion, rfl⟩, rfl⟩

theorem Leads.bind {result : β} (hrun : run.Leads before value middle)
    (hnext : (next value).Leads middle result after) : (run >>= next).Leads before result after := by
  intro world htree
  obtain ⟨first, hfirst, hmiddle⟩ := hrun world htree
  obtain ⟨last, hlast, hafter⟩ := hnext first hmiddle
  exact ⟨last, by rw [bind_of_ok hfirst, hlast], hafter⟩

theorem Leads.unique (hrun : run.Leads before value after) {world last : World} {other : α}
    (htree : world.tree = before) (hok : run world = .ok other last) :
    other = value ∧ last.tree = after := by
  obtain ⟨final, hfinal, hafter⟩ := hrun world htree
  rw [hok] at hfinal
  cases hfinal
  exact ⟨rfl, hafter⟩

end Run

/-! ## Files that are there -/

section

variable {tree before after : FileTree} {dir base name part : Path} {content : Text} {force : Bool}
variable {world last : World}

/-- The file can be given by its path, and something is there: the content, if that was forced. -/
structure FileTree.Settled (tree : FileTree) (dir name : Path) (content : Text) (force : Bool) : Prop where
  acceptable : Acceptable (Path.join dir name)
  short : Text.byteLength name ≤ longestName
  there : tree.entry? (tree.placeOf (Path.join dir name)) ≠ none
  forced : force = true → tree.entry? (tree.placeOf (Path.join dir name)) = some (.file (.text content))

theorem FileTree.Settled.congr (hsettled : Settled before dir name content force)
    (hworking : after.workingDir = before.workingDir)
    (hsame : after.entry? (before.placeOf (Path.join dir name)) =
      before.entry? (before.placeOf (Path.join dir name))) : Settled after dir name content force := by
  refine ⟨hsettled.acceptable, hsettled.short, ?_, ?_⟩
  all_goals rw [placeOf_congr hworking, hsame]
  · exact hsettled.there
  · exact hsettled.forced

/-- A file is settled where directories were removed, unless it is one of them. -/
theorem FileTree.Settled.of_pruned {gone : Location → Prop} (hsettled : Settled after dir name content force)
    (hpruned : Pruned gone before after) (hkept : ¬ gone (after.placeOf (Path.join dir name))) :
    Settled before dir name content force :=
  hsettled.congr hpruned.workingDir.symm ((hpruned.entries _).resolve_right fun h => hkept h.1)

theorem Run.workingDir_of_writeUnlessThere {path : Path} {written : Bool} (hplain : world.tree.Plain)
    (hok : Run.writeUnlessThere path content force world = .ok written last) :
    last.tree.workingDir = world.tree.workingDir := by
  rcases Run.writeUnlessThere_cases hok with ⟨-, -, -, htree⟩ | ⟨-, -, middle, hparent, hnone, hwrite⟩
  · rw [htree]
  · obtain ⟨-, hextends, -, hput⟩ := Run.put_of_writeUnlessThere hplain hparent hnone hwrite
    rw [hput, put_workingDir, hextends.workingDir]

theorem Run.settled_of_writeUnlessThere {written : Bool} (hplain : world.tree.Plain)
    (hname : Path.IsSegment name)
    (hok : Run.writeUnlessThere (Path.join dir name) content force world = .ok written last) :
    last.tree.Settled dir name content force := by
  have hworking := Run.workingDir_of_writeUnlessThere hplain hok
  have hthere := Run.there_of_writeUnlessThere hplain hok
  rw [← placeOf_congr hworking] at hthere
  rcases Run.writeUnlessThere_cases hok with ⟨-, hholds, rfl, -⟩ | ⟨-, -, middle, hparent, hnone, hwrite⟩
  · obtain ⟨haccept, -, hshort, -⟩ := (holds_join_iff hname hplain.linkFree).mp hholds
    exact ⟨haccept, hshort, hthere, fun hforce => nomatch hforce⟩
  · obtain ⟨hmiddle, -, hroot, hput⟩ := Run.put_of_writeUnlessThere hplain hparent hnone hwrite
    obtain ⟨spot, hlocate⟩ := ((writeFile_eq_ok_iff hmiddle.linkFree).mp hwrite).1
    obtain ⟨haccept, -, hshort, -⟩ := (locate_join_eq_ok_iff hname hmiddle.linkFree).mp hlocate
    refine ⟨haccept, hshort, hthere, fun _ => ?_⟩
    rw [placeOf_congr hworking, hput, entry?_put hroot, if_pos rfl]

/-- The operation on a settled file in a directory that is there does nothing to the tree. -/
theorem FileTree.Settled.leads_writeUnlessThere (hpart : Path.IsSegment part) (hname : Path.IsSegment name)
    (hsettled : Settled tree (Path.join base part) name content force) (hfree : tree.LinkFree)
    (hdirs : tree.Passable (tree.startOf (Path.join base part)) (Path.join base part).steps) :
    (Run.writeUnlessThere (Path.join (Path.join base part) name) content force).Leads tree force tree := by
  have hparent := (Path.tidy_join base hpart).parent?_join hname
  have hplace := hsettled.there
  rw [placeOf_join hname] at hplace
  have hholds : tree.holds (Path.join (Path.join base part) name) = true :=
    (holds_join_iff hname hfree).mpr ⟨hsettled.acceptable, hdirs, hsettled.short, hplace⟩
  unfold Run.writeUnlessThere
  refine (Run.leads_tree tree).bind ?_
  rw [hholds]
  cases force with
  | false => exact (Run.leads_log _ _).bind ((Run.leads_tell _ _).bind (Run.leads_pure _ _))
  | true =>
      have hfile := hsettled.forced rfl
      have hdir : tree.isDir (Path.join base part) = true := by
        obtain ⟨rest, -, htext⟩ := Path.exists_eq_append_of_parent? hparent
        have haccept : Acceptable (Path.join base part) :=
          Path.acceptable_of_append (htext ▸ hsettled.acceptable) (Path.tidy_join base hpart).ne_nil
        obtain ⟨hbase, hshort, hentry⟩ := (passable_join_iff hpart).mp hdirs
        exact (isDir_join_iff hpart hfree).mpr ⟨haccept, hbase, hshort, hentry⟩
      have hwrite : Change.writeFile (Path.join (Path.join base part) name) (.text content) tree =
          .ok () tree := by
        refine (writeFile_eq_ok_iff hfree).mpr ⟨⟨_, (locate_join_eq_ok_iff hname hfree).mpr
          ⟨hsettled.acceptable, hdirs, hsettled.short, rfl⟩⟩, by simp [hfile], ?_⟩
        refine (put_eq_self ?_ hfile).symm
        rw [placeOf_join hname]
        simp
      rw [if_neg (by simp), hparent]
      exact (Run.leads_change (Change.makeDirAll_of_isDir hfree hdir) _).bind
        ((Run.leads_change hwrite _).bind (Run.leads_pure _ _))

end

/-! ## Directories that hold nothing -/

namespace FileTree

variable {tree other : FileTree} {dir name : Path}

/-- Does the path lead to a directory that holds nothing? -/
def isEmptyDir (tree : FileTree) (path : Path) : Bool :=
  tree.isDir path && (tree.children (tree.placeOf path)).isEmpty

/-- The tree without the directory that the path leads to, if it holds nothing. -/
def withoutEmptyDir (tree : FileTree) (path : Path) : FileTree :=
  if tree.isEmptyDir path then tree.erase (tree.placeOf path) else tree

theorem children_isEmpty_iff {place : Location} :
    (tree.children place).isEmpty = true ↔ ∀ name, tree.entry? (place ++ [name]) = none := by
  refine ⟨fun hempty => vacant_of_children_isEmpty hempty, fun hvacant => ?_⟩
  rw [List.isEmpty_iff, children, List.filterMap_eq_nil_iff]
  intro pair hpair
  rw [Option.map_eq_none_iff]
  by_contra hchild
  obtain ⟨name, hname⟩ := Option.ne_none_iff_exists'.mp hchild
  have hplace := childName?_eq_some_iff.mp hname
  have hnone := hvacant name
  rw [entry?_of_ne_nil (by simp), List.lookup_eq_none_iff] at hnone
  exact bne_iff_ne.mp (hnone pair hpair) hplace.symm

theorem isEmptyDir_join_iff (hname : Path.IsSegment name) (hfree : tree.LinkFree) :
    tree.isEmptyDir (Path.join dir name) = true ↔
      (Acceptable (Path.join dir name) ∧ tree.Passable (tree.startOf dir) dir.steps ∧
        Text.byteLength name ≤ longestName ∧ tree.entry? (tree.placeOf dir ++ [name]) = some .dir) ∧
      ∀ child, tree.entry? (tree.placeOf dir ++ [name] ++ [child]) = none := by
  rw [isEmptyDir, Bool.and_eq_true, isDir_join_iff hname hfree, children_isEmpty_iff, placeOf_join hname]

theorem entry?_withoutEmptyDir (hname : Path.IsSegment name) (tree : FileTree) (place : Location) :
    entry? (tree.withoutEmptyDir (Path.join dir name)) place =
      if tree.isEmptyDir (Path.join dir name) = true ∧ place = tree.placeOf (Path.join dir name) then none
      else tree.entry? place := by
  unfold withoutEmptyDir
  by_cases hempty : tree.isEmptyDir (Path.join dir name) = true
  · rw [if_pos hempty]
    by_cases hplace : place = tree.placeOf (Path.join dir name)
    · rw [if_pos ⟨hempty, hplace⟩, hplace, entry?_erase]
      rw [placeOf_join hname]
      simp
    · rw [if_neg fun h => hplace h.2, entry?_erase_of_ne hplace]
  · rw [if_neg hempty, if_neg fun h => hempty h.1]

@[simp] theorem withoutEmptyDir_workingDir (tree : FileTree) (path : Path) :
    (tree.withoutEmptyDir path).workingDir = tree.workingDir := by
  unfold withoutEmptyDir
  split <;> rfl

theorem Plain.withoutEmptyDir (hplain : tree.Plain) (path : Path) : (tree.withoutEmptyDir path).Plain := by
  unfold FileTree.withoutEmptyDir
  split
  · exact hplain.erase _
  · exact hplain

/-- The same is seen at every place of both trees. -/
structure Alike (tree other : FileTree) : Prop where
  workingDir : other.workingDir = tree.workingDir
  entries : ∀ place, other.entry? place = tree.entry? place

theorem Alike.sameDirs (halike : Alike tree other) : SameDirs tree other :=
  ⟨halike.workingDir, fun place => by rw [halike.entries]⟩

theorem Alike.withoutEmptyDir (halike : Alike tree other) (hname : Path.IsSegment name)
    (hfree : tree.LinkFree) (hother : other.LinkFree) :
    Alike (tree.withoutEmptyDir (Path.join dir name)) (other.withoutEmptyDir (Path.join dir name)) := by
  have hempty : other.isEmptyDir (Path.join dir name) = true ↔
      tree.isEmptyDir (Path.join dir name) = true := by
    simp only [isEmptyDir_join_iff hname hfree, isEmptyDir_join_iff hname hother, halike.entries,
      halike.sameDirs.passable_iff, startOf_congr halike.workingDir, placeOf_congr halike.workingDir]
  refine ⟨?_, fun place => ?_⟩
  · rw [withoutEmptyDir_workingDir, withoutEmptyDir_workingDir, halike.workingDir]
  · rw [entry?_withoutEmptyDir hname, entry?_withoutEmptyDir hname, halike.entries,
      placeOf_congr halike.workingDir]
    simp only [hempty]

end FileTree

theorem FileTree.pruned_withoutEmptyDir {tree : FileTree} {dir name : Path} (hname : Path.IsSegment name)
    (hfree : tree.LinkFree) :
    Pruned (· = tree.placeOf (Path.join dir name)) (tree.withoutEmptyDir (Path.join dir name)) tree := by
  refine ⟨(withoutEmptyDir_workingDir tree _).symm, fun place => ?_⟩
  rw [entry?_withoutEmptyDir hname]
  split
  next hremoved =>
    obtain ⟨hempty, rfl⟩ := hremoved
    rw [placeOf_join hname]
    obtain ⟨⟨-, -, -, hdir⟩, hvacant⟩ := (isEmptyDir_join_iff hname hfree).mp hempty
    exact Or.inr ⟨rfl, rfl, hdir, hvacant⟩
  next => exact Or.inl rfl

namespace FileTree

section

variable {gone : Location → Prop} {tree full before : FileTree} {dir name : Path}

/-- A directory that holds nothing without others holds nothing with them. -/
theorem Pruned.isEmptyDir (hpruned : Pruned gone tree full) (hname : Path.IsSegment name)
    (hfree : full.LinkFree) (htreeFree : tree.LinkFree)
    (hapart : ∀ child, ¬ gone (full.placeOf (Path.join dir name) ++ [child]))
    (hempty : tree.isEmptyDir (Path.join dir name) = true) : full.isEmptyDir (Path.join dir name) = true := by
  have hextends := hpruned.extends
  rw [isEmptyDir_join_iff hname htreeFree, ← placeOf_join hname, ← placeOf_congr hpruned.workingDir] at hempty
  rw [isEmptyDir_join_iff hname hfree, ← placeOf_join hname]
  obtain ⟨⟨haccept, hdirs, hshort, hdir⟩, hnone⟩ := hempty
  refine ⟨⟨haccept, hextends.passable hdirs, hshort, hextends.entries _ _ hdir⟩, fun child => ?_⟩
  exact ((hpruned.entries _).resolve_right fun h => hapart child h.1).symm.trans (hnone child)

/-- A directory that holds nothing is one to the tree without others, or it is one of them. -/
theorem Pruned.vacant_or_isEmptyDir (hpruned : Pruned gone tree full) (hname : Path.IsSegment name)
    (hfree : full.LinkFree) (htreeFree : tree.LinkFree)
    (hdirs : tree.Passable (tree.startOf dir) dir.steps)
    (hempty : full.isEmptyDir (Path.join dir name) = true) :
    tree.entry? (full.placeOf (Path.join dir name)) = none ∨ tree.isEmptyDir (Path.join dir name) = true := by
  rw [isEmptyDir_join_iff hname hfree, ← placeOf_join hname] at hempty
  rw [isEmptyDir_join_iff hname htreeFree, ← placeOf_join hname, ← placeOf_congr hpruned.workingDir]
  obtain ⟨⟨haccept, -, hshort, hdir⟩, hvacant⟩ := hempty
  rcases hpruned.entries (full.placeOf (Path.join dir name)) with hsame | ⟨-, hnone, -⟩
  · refine Or.inr ⟨⟨haccept, hdirs, hshort, hsame.trans hdir⟩, fun child => ?_⟩
    rcases hpruned.entries (full.placeOf (Path.join dir name) ++ [child]) with hsame | ⟨-, hnone, -⟩
    · exact hsame.trans (hvacant child)
    · exact hnone
  · exact Or.inl hnone

/-- A directory that holds nothing is removed again from a tree that lacks other such directories. -/
theorem Pruned.alike_withoutEmptyDir (hpruned : Pruned gone tree full) (hname : Path.IsSegment name)
    (hfree : full.LinkFree) (htreeFree : tree.LinkFree)
    (hdirs : tree.Passable (tree.startOf dir) dir.steps)
    (hapart : ∀ child, ¬ gone (full.placeOf (Path.join dir name) ++ [child]))
    (hothers : ∀ place, gone place → place ≠ full.placeOf (Path.join dir name) →
      tree.entry? place = some .dir)
    (hvacant : tree.entry? (full.placeOf (Path.join dir name)) = none →
      entry? (full.withoutEmptyDir (Path.join dir name)) (full.placeOf (Path.join dir name)) = none) :
    Alike (full.withoutEmptyDir (Path.join dir name)) (tree.withoutEmptyDir (Path.join dir name)) := by
  refine ⟨?_, fun place => ?_⟩
  · rw [withoutEmptyDir_workingDir, withoutEmptyDir_workingDir, hpruned.workingDir]
  rw [entry?_withoutEmptyDir hname] at hvacant
  rw [entry?_withoutEmptyDir hname, entry?_withoutEmptyDir hname, ← placeOf_congr hpruned.workingDir]
  by_cases hplace : place = full.placeOf (Path.join dir name)
  · subst hplace
    by_cases htree : tree.isEmptyDir (Path.join dir name) = true
    · rw [if_pos ⟨htree, rfl⟩, if_pos ⟨hpruned.isEmptyDir hname hfree htreeFree hapart htree, rfl⟩]
    rw [if_neg fun h => htree h.1]
    by_cases hfull : full.isEmptyDir (Path.join dir name) = true
    · rw [if_pos ⟨hfull, rfl⟩]
      exact (hpruned.vacant_or_isEmptyDir hname hfree htreeFree hdirs hfull).resolve_right htree
    · rw [if_neg fun h => hfull h.1] at hvacant ⊢
      rcases hpruned.entries (full.placeOf (Path.join dir name)) with hsame | ⟨-, hnone, -⟩
      · exact hsame
      · exact hnone.trans (hvacant hnone).symm
  · rw [if_neg fun h => hplace h.2, if_neg fun h => hplace h.2]
    rcases hpruned.entries place with hsame | ⟨hgone, hnone, -⟩
    · exact hsame
    · cases hnone.symm.trans (hothers place hgone hplace)

/-- What is removed from a tree that has grown was added to it, if it was not there before. -/
theorem Grown.withoutEmptyDir (hgrown : Grown before tree) (hname : Path.IsSegment name)
    (hvacant : ∀ place, entry? (tree.withoutEmptyDir (Path.join dir name)) place = none →
      before.entry? place = none) : Grown before (tree.withoutEmptyDir (Path.join dir name)) := by
  have hplace (hempty : tree.isEmptyDir (Path.join dir name) = true) :
      entry? (tree.withoutEmptyDir (Path.join dir name)) (tree.placeOf (Path.join dir name)) = none := by
    rw [entry?_withoutEmptyDir hname, if_pos ⟨hempty, rfl⟩]
  by_cases hempty : tree.isEmptyDir (Path.join dir name) = true
  · have hbefore := hvacant _ (hplace hempty)
    rw [FileTree.withoutEmptyDir, if_pos hempty]
    exact hgrown.erase hbefore
  · rwa [FileTree.withoutEmptyDir, if_neg hempty]

end

end FileTree

theorem Run.leads_removeDirIfEmpty {tree : FileTree} {dir name : Path} (hname : Path.IsSegment name)
    (hfree : tree.LinkFree) :
    (Run.removeDirIfEmpty (Path.join dir name)).Leads tree (tree.isEmptyDir (Path.join dir name))
      (tree.withoutEmptyDir (Path.join dir name)) := by
  unfold Run.removeDirIfEmpty FileTree.withoutEmptyDir FileTree.isEmptyDir
  refine (Run.leads_tree tree).bind ?_
  by_cases hdir : tree.isDir (Path.join dir name) = true
  · have hlocate := locate_of_isDir hfree hdir
    rw [locate, (Path.tidy_join dir hname).ending_eq] at hlocate
    obtain ⟨location, hfind⟩ := isDir_iff.mp hdir
    obtain ⟨rfl, -⟩ := entry?_of_find hfree hfind
    have hlist : (fun tree : FileTree => tree.list (Path.join dir name)) tree =
        .ok (tree.children (tree.placeOf (Path.join dir name))) := by
      dsimp only
      rw [list, hfind]
    rw [hdir, if_pos rfl, Bool.true_and]
    refine (Run.leads_look hlist _).bind ?_
    by_cases hempty : (tree.children (tree.placeOf (Path.join dir name))).isEmpty = true
    · have hlast : (Path.join dir name).steps.getLast? = some (.name name) := by
        rw [Path.steps_join hname.isAbsolute_eq, hname.steps_eq, List.getLast?_concat]
      have hremove : Change.removeDir (Path.join dir name) tree =
          .ok () (tree.erase (tree.placeOf (Path.join dir name))) := by
        rw [Change.removeDir, hlocate]
        dsimp only
        rw [hlast]
        dsimp only
        rw [if_pos hempty]
      rw [hempty, if_pos rfl, if_pos rfl]
      exact (Run.leads_change hremove _).bind (Run.leads_pure _ _)
    · rw [Bool.not_eq_true] at hempty
      rw [hempty, if_neg Bool.false_ne_true, if_neg Bool.false_ne_true]
      exact Run.leads_pure _ _
  · rw [Bool.not_eq_true] at hdir
    rw [hdir, if_neg Bool.false_ne_true, Bool.false_and, if_neg Bool.false_ne_true]
    exact Run.leads_pure _ _

end ServiceScaffold
