import ServiceScaffold.Proofs.FileTree.Reach
import ServiceScaffold.Proofs.Path.Lineage

/-! # Paths that end in a part that leads somewhere

The parent of such a path is shorter, and it takes all of its steps but the last one that leads anywhere.
So the lineage of the path is the path and the lineage of its parent.
-/

namespace ServiceScaffold.Path

open FileTree (Acceptable)

variable {path parent base name : Path} {parts kept before more : List Text} {part last : Text}

/-- The last part of the path leads somewhere. -/
def Tidy (path : Path) : Prop := ∃ before last, segments path = before ++ [last] ∧ isIdle last = false

theorem Tidy.ne_nil (hpath : Tidy path) : path ≠ [] := by
  rintro rfl
  obtain ⟨before, last, hsegments, hlast⟩ := hpath
  have hnone : [[]] = before ++ [last] := hsegments
  obtain rfl := List.mem_singleton.mp (hnone ▸ List.mem_append_right before (List.mem_singleton_self last))
  cases hlast

theorem tidy_join (base : Path) (hname : IsSegment name) : Tidy (join base name) := by
  obtain ⟨before, hbefore⟩ := exists_segments_join base hname
  exact ⟨before, name, hbefore, hname.isIdle_eq⟩

/-! ## Parts and steps -/

theorem stepOf?_of_isIdle (hidle : isIdle part = true) (step : Step) :
    stepOf? part = some step → step = .here := by
  rw [isIdle, Bool.or_eq_true, decide_eq_true_eq] at hidle
  intro hstep
  rcases hidle with hempty | rfl
  · rw [stepOf?, if_pos hempty] at hstep
    cases hstep
  · exact (Option.some.inj hstep).symm

theorem here_of_mem_filterMap (hparts : ∀ part ∈ parts, isIdle part = true) :
    ∀ step ∈ parts.filterMap stepOf?, step = .here := by
  intro step hstep
  obtain ⟨part, hpart, hof⟩ := List.mem_filterMap.mp hstep
  exact stepOf?_of_isIdle (hparts part hpart) step hof

theorem exists_stepOf?_of_not_isIdle (hidle : isIdle part = false) :
    ∃ step, stepOf? part = some step ∧ (step = .up ∨ ∃ name, step = .name name) := by
  rw [isIdle, Bool.or_eq_false_iff, decide_eq_false_iff_not] at hidle
  rw [stepOf?, hidle.1, if_neg hidle.2, if_neg Bool.false_ne_true]
  split
  · exact ⟨.up, rfl, Or.inl rfl⟩
  · exact ⟨.name part, rfl, Or.inr ⟨part, rfl⟩⟩

/-- What is dropped at the end is idle, and what is kept ends in a part that leads somewhere, unless that
is nothing or a `.` that stands alone. -/
theorem withoutIdleEnd_cases (path : Path) (parts : List Text) :
    ∃ idle, parts = withoutIdleEnd path parts ++ idle ∧ (∀ part ∈ idle, isIdle part = true) ∧
      (withoutIdleEnd path parts = [] ∨ withoutIdleEnd path parts = [".".toList] ∨
        ∃ before last, withoutIdleEnd path parts = before ++ [last] ∧ isIdle last = false) := by
  have hparts : parts = (parts.reverse.dropWhile isIdle).reverse ++ (parts.reverse.takeWhile isIdle).reverse := by
    rw [← List.reverse_append, List.takeWhile_append_dropWhile, List.reverse_reverse]
  have hidle : ∀ part ∈ (parts.reverse.takeWhile isIdle).reverse, isIdle part = true := fun part hpart =>
    List.mem_takeWhile_imp (List.mem_reverse.mp hpart)
  unfold withoutIdleEnd
  split
  next hnone =>
    rw [hnone, List.nil_append] at hparts
    rw [← hparts] at hidle
    split
    next hhere =>
      -- the `.` in front is kept, idle as it is
      rw [Bool.and_eq_true, decide_eq_true_eq] at hhere
      obtain ⟨rest, rfl⟩ := List.head?_eq_some_iff.mp hhere.2
      exact ⟨rest, rfl, fun part hpart => hidle part (List.mem_cons_of_mem _ hpart), Or.inr (Or.inl rfl)⟩
    next => exact ⟨parts, rfl, hidle, Or.inl rfl⟩
  next kept hkept =>
    refine ⟨_, hparts, hidle, Or.inr (Or.inr ?_)⟩
    cases hdrop : parts.reverse.dropWhile isIdle with
    | nil => exact absurd (by rw [hdrop]; rfl) hkept
    | cons last before =>
        refine ⟨before.reverse, last, List.reverse_cons, ?_⟩
        have hhead := List.head?_dropWhile_not isIdle parts.reverse
        rw [hdrop] at hhead
        simpa using hhead

/-! ## Texts -/

/-- The path is its parts, put together again. -/
theorem eq_intercalate_segments (path : Path) :
    path = (if isAbsolute path then ['/'] else []) ++ List.intercalate "/" (segments path) := by
  have hparts (text : Text) : List.intercalate "/" (text.splitOn '/') = text := List.intercalate_splitOn '/'
  rw [segments, hparts]
  split
  next habsolute =>
    cases path with
    | nil => cases habsolute
    | cons c rest =>
        rw [isAbsolute_cons, decide_eq_true_eq] at habsolute
        rw [habsolute]
        rfl
  next => rfl

theorem exists_intercalate_append (kept more : List Text) (hmore : ∃ part ∈ more, part ≠ []) :
    ∃ rest, rest ≠ [] ∧ List.intercalate "/" (kept ++ more) = List.intercalate "/" kept ++ rest := by
  obtain ⟨part, hpart, hne⟩ := hmore
  cases kept with
  | nil =>
      refine ⟨List.intercalate "/" more, ?_, rfl⟩
      cases more with
      | nil => exact absurd hpart List.not_mem_nil
      | cons first others =>
          rw [Text.intercalate_cons]
          rcases List.mem_cons.mp hpart with rfl | hpart
          · simp [hne]
          · cases others with
            | nil => exact absurd hpart List.not_mem_nil
            | cons => simp
  | cons first others =>
      refine ⟨more.flatMap ("/".toList ++ ·), ?_, ?_⟩
      · cases more with
        | nil => exact absurd hpart List.not_mem_nil
        | cons => simp
      · rw [List.cons_append, Text.intercalate_cons, Text.intercalate_cons, List.flatMap_append,
          List.append_assoc]

theorem Tidy.ending_eq (hpath : Tidy path) : path.ending = [] := by
  obtain ⟨before, last, hsegments, hlast⟩ := hpath
  have hne : last ≠ [] := by
    rintro rfl
    cases hlast
  have hmem : last ∈ segments path := by simp [hsegments]
  have hseparator := noSeparator_of_mem_segments hmem
  have hends : ∃ front, List.intercalate "/" (before ++ [last]) = front ++ last := by
    cases before with
    | nil => exact ⟨[], List.intercalate_singleton⟩
    | cons first others =>
        refine ⟨first ++ others.flatMap ("/".toList ++ ·) ++ "/".toList, ?_⟩
        rw [List.cons_append, Text.intercalate_cons, List.flatMap_append]
        simp
  obtain ⟨front, hfront⟩ := hends
  rw [Path.ending, if_neg]
  rw [eq_intercalate_segments path, hsegments, hfront, ← List.append_assoc,
    List.getLast?_append_of_ne_nil _ hne]
  exact fun hmem => hseparator (List.mem_of_getLast? hmem)

/-- The parts of a parent are those of its path without the last one and idle ones. -/
theorem exists_parts_of_parent? (hparent : parent? path = some parent) :
    ∃ before last idle, segments path = before ++ last :: idle ∧ last ≠ [] ∧
      parent = (if isAbsolute path then ['/'] else []) ++ List.intercalate "/" (withoutIdleEnd path before) := by
  obtain ⟨idle, hsegments, -, hkept⟩ := withoutIdleEnd_cases path (segments path)
  unfold parent? at hparent
  have hlast : ∃ before last, withoutIdleEnd path (segments path) = before ++ [last] ∧ last ≠ [] := by
    rcases hkept with hnil | hhere | ⟨before, last, hparts, hlast⟩
    · rw [hnil] at hparent
      cases hparent
    · exact ⟨[], ".", hhere, by decide⟩
    · refine ⟨before, last, hparts, ?_⟩
      rintro rfl
      cases hlast
  obtain ⟨before, last, hparts, hne⟩ := hlast
  refine ⟨before, last, idle, by rw [hsegments, hparts]; simp, hne, ?_⟩
  rw [hparts] at hparent
  split at hparent
  next heq => simp at heq
  next =>
    rw [List.dropLast_concat] at hparent
    cases hparent
    split <;> rfl

theorem exists_eq_append_of_parent? (hparent : parent? path = some parent) :
    ∃ rest, rest ≠ [] ∧ path = parent ++ rest := by
  obtain ⟨before, last, idle, hsegments, hlast, rfl⟩ := exists_parts_of_parent? hparent
  obtain ⟨between, hbefore, -⟩ := withoutIdleEnd_cases path before
  obtain ⟨rest, hrest, htext⟩ := exists_intercalate_append (withoutIdleEnd path before)
    (between ++ last :: idle) ⟨last, by simp, hlast⟩
  refine ⟨rest, hrest, ?_⟩
  rw [List.append_assoc, ← htext, ← List.append_assoc (withoutIdleEnd path before), ← hbefore,
    ← hsegments]
  exact eq_intercalate_segments path

theorem length_lt_of_parent? (hparent : parent? path = some parent) : parent.length < path.length := by
  obtain ⟨rest, hrest, rfl⟩ := exists_eq_append_of_parent? hparent
  have hpositive := List.length_pos_of_ne_nil hrest
  rw [List.length_append]
  omega

/-! ## Lineages -/

/-- As parents are shorter, the length of a path is enough fuel for its lineage, and more does not
matter. -/
theorem go_eq_lineage {fuel : Nat} (hfuel : path.length ≤ fuel) : lineage.go fuel path = lineage path := by
  induction fuel using Nat.strong_induction_on generalizing path with
  | _ fuel ih =>
    unfold lineage
    cases path with
    | nil => cases fuel <;> rfl
    | cons c rest =>
        cases fuel with
        | zero => cases hfuel
        | succ fuel =>
            rw [List.length_cons] at hfuel ⊢
            rw [lineage.go, lineage.go]
            cases hparent : parent? (c :: rest) with
            | none => rfl
            | some parent =>
                have hshorter := length_lt_of_parent? hparent
                rw [List.length_cons] at hshorter
                dsimp only
                rw [ih fuel (by omega) (by omega), ih rest.length (by omega) (by omega)]

theorem here_of_parent?_eq_none (hparent : parent? path = none) : ∀ step ∈ path.steps, step = .here := by
  obtain ⟨idle, hparts, hidle, -⟩ := withoutIdleEnd_cases path (segments path)
  have hkept : withoutIdleEnd path (segments path) = [] := by
    unfold parent? at hparent
    split at hparent
    next hnil => exact hnil
    next => cases hparent
  rw [hkept, List.nil_append] at hparts
  rw [steps_eq_segments, hparts]
  exact here_of_mem_filterMap hidle

/-- The lineage of a path starts with the path, unless the path stays where it starts. -/
theorem lineage_cases (path : Path) :
    lineage path = [] ∧ (∀ step ∈ path.steps, step = .here) ∨ ∃ upper, lineage path = path :: upper := by
  cases path with
  | nil => exact Or.inl ⟨rfl, fun step hstep => nomatch hstep⟩
  | cons c rest =>
      rw [lineage, List.length_cons, lineage.go, List.isEmpty_cons, if_neg Bool.false_ne_true]
      split
      next hparent => exact Or.inl ⟨rfl, here_of_parent?_eq_none hparent⟩
      next => exact Or.inr ⟨_, rfl⟩

theorem lineage_eq (hparent : parent? path = some parent) : lineage path = path :: lineage parent := by
  have hshorter := length_lt_of_parent? hparent
  cases path with
  | nil => cases hshorter
  | cons c rest =>
      rw [List.length_cons] at hshorter
      rw [lineage, List.length_cons, lineage.go, hparent]
      dsimp only
      rw [if_neg (by simp), go_eq_lineage (by omega)]

/-! ## Parents -/

theorem byteLength_append_le (front rest : Text) :
    Text.byteLength front ≤ Text.byteLength (front ++ rest) := by
  have hgrows (text : Text) (total : Nat) :
      total ≤ text.foldl (fun total c => total + c.utf8Size) total := by
    induction text generalizing total with
    | nil => exact le_rfl
    | cons c text ih => exact (Nat.le_add_right _ _).trans (ih _)
  rw [Text.byteLength, Text.byteLength, List.foldl_append]
  exact hgrows rest _

theorem acceptable_of_append {front rest : Text} (haccept : Acceptable (front ++ rest)) (hne : front ≠ []) :
    Acceptable front := by
  refine ⟨?_, by simpa using hne, (byteLength_append_le front rest).trans haccept.short⟩
  have hnul := haccept.noNul
  rw [List.contains_append, Bool.or_eq_false_iff] at hnul
  exact hnul.1

/-- The first path takes all steps of the second but the last one that leads anywhere, and ends where it
leads somewhere itself, unless it stays where it starts. -/
structure Above (parent path : Path) : Prop where
  isAbsolute : Path.isAbsolute parent = Path.isAbsolute path
  steps : ∃ idle last, path.steps = parent.steps ++ idle ++ [last] ∧ (∀ step ∈ idle, step = .here) ∧
    (last = .up ∨ ∃ name, last = .name name)
  tidy : Tidy parent ∨ ∀ step ∈ parent.steps, step = .here

theorem segments_of_parent? (hparent : parent? path = some parent)
    (htext : parent = (if Path.isAbsolute path then ['/'] else []) ++ List.intercalate "/" kept) :
    segments parent = (List.intercalate "/" kept).splitOn '/' := by
  have habsolute := (parent?_eq_some hparent).1
  rw [segments, habsolute, htext]
  split <;> rfl

theorem Tidy.exists_above (hpath : Tidy path) : ∃ parent, parent? path = some parent ∧ Above parent path := by
  obtain ⟨before, last, hsegments, hlast⟩ := hpath
  obtain ⟨idle, hbefore, hidle, hkept⟩ := withoutIdleEnd_cases path before
  obtain ⟨step, hstep, hleads⟩ := exists_stepOf?_of_not_isIdle hlast
  have hparent : parent? path = some ((if Path.isAbsolute path then ['/'] else []) ++
      List.intercalate "/" (withoutIdleEnd path before)) := by
    unfold parent?
    rw [hsegments, withoutIdleEnd_of_last _ _ hlast]
    split
    next heq => simp at heq
    next =>
      rw [List.dropLast_concat]
      split <;> rfl
  have hparts := segments_of_parent? hparent rfl
  have hseparators : ∀ part ∈ withoutIdleEnd path before, '/' ∉ part := by
    intro part hpart
    have hmem : part ∈ segments path := by
      rw [hsegments, hbefore]
      simp [hpart]
    exact noSeparator_of_mem_segments hmem
  have hsteps : Path.steps ((if Path.isAbsolute path then ['/'] else []) ++
      List.intercalate "/" (withoutIdleEnd path before)) =
        (withoutIdleEnd path before).filterMap stepOf? := by
    rw [steps_eq_segments, hparts, ← steps_eq, steps_intercalate hseparators]
  refine ⟨_, hparent, (parent?_eq_some hparent).1, ⟨idle.filterMap stepOf?, step, ?_, ?_, hleads⟩, ?_⟩
  · rw [hsteps, ← List.filterMap_append, ← hbefore, steps_eq_segments, hsegments, List.filterMap_append]
    simp [hstep]
  · exact here_of_mem_filterMap hidle
  · rcases hkept with hnil | hhere | ⟨others, final, hends, hfinal⟩
    · refine Or.inr ?_
      rw [hsteps, hnil]
      simp
    · refine Or.inr ?_
      rw [hsteps, hhere]
      exact here_of_mem_filterMap (by decide)
    · refine Or.inl ⟨others, final, ?_, hfinal⟩
      rw [hparts, ← hends]
      exact List.splitOn_intercalate '/' hseparators (by simp [hends])

theorem Above.onWay (habove : Above parent path) : OnWay parent path := by
  obtain ⟨idle, last, hsteps, -⟩ := habove.steps
  exact ⟨habove.isAbsolute, by rw [hsteps, List.append_assoc]; exact List.prefix_append _ _⟩

/-! ## Names in a directory -/

theorem Tidy.segments_join (hbase : Tidy base) (hname : IsSegment name) :
    segments (join base name) = segments base ++ [name] := by
  have hsplit : (join base name).splitOn '/' = base.splitOn '/' ++ [name] := by
    rcases join_cases base hname.isAbsolute_eq with ⟨hnil, -⟩ | ⟨front, rfl, -⟩ | ⟨-, hjoin⟩
    · exact absurd hnil hbase.ne_nil
    · -- there is no separator at the end of the base
      have hending := hbase.ending_eq
      simp [Path.ending] at hending
    · rw [hjoin, splitOn_append_cons, List.splitOn_eq_singleton hname.noSeparator]
  rw [splitOn_eq_segments, splitOn_eq_segments, isAbsolute_join hname.isAbsolute_eq,
    List.append_assoc] at hsplit
  exact List.append_cancel_left hsplit

theorem Tidy.parent?_join (hbase : Tidy base) (hname : IsSegment name) :
    parent? (join base name) = some base := by
  have hsegments := hbase.segments_join hname
  obtain ⟨before, last, hparts, hlast⟩ := hbase
  have htext := eq_intercalate_segments base
  unfold parent?
  rw [hsegments, withoutIdleEnd_of_last _ _ hname.isIdle_eq, hparts]
  split
  next heq => simp at heq
  next =>
    rw [List.dropLast_concat, withoutIdleEnd_of_last _ _ hlast, ← hparts,
      isAbsolute_join hname.isAbsolute_eq]
    refine congrArg some (Eq.trans ?_ htext.symm)
    split <;> rfl

end ServiceScaffold.Path
