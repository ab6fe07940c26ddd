import ServiceScaffold.Proofs.Path

/-! # The paths above a path

A parent takes the first steps of its path, from the same start. So does every path of a lineage, and
whatever is created for a path is therefore on the way to it.
-/

namespace ServiceScaffold.Path

variable {path parent upper lower : Path} {parts : List Text}

/-- The first path takes the first steps of the second, from the same start. -/
structure OnWay (upper lower : Path) : Prop where
  isAbsolute : isAbsolute upper = isAbsolute lower
  steps : upper.steps <+: lower.steps

theorem OnWay.refl (path : Path) : OnWay path path := ⟨rfl, List.prefix_rfl⟩

theorem OnWay.trans (hupper : OnWay upper path) (hlower : OnWay path lower) : OnWay upper lower :=
  ⟨hupper.isAbsolute.trans hlower.isAbsolute, hupper.steps.trans hlower.steps⟩

/-! ## The parts of a parent -/

theorem withoutIdleEnd_shortens (path : Path) (parts : List Text) : withoutIdleEnd path parts <+: parts := by
  unfold withoutIdleEnd
  split
  next =>
    split
    next hhead =>
      rw [Bool.and_eq_true, decide_eq_true_eq] at hhead
      obtain ⟨rest, rfl⟩ := List.head?_eq_some_iff.mp hhead.2
      exact ⟨rest, rfl⟩
    next => exact List.nil_prefix
  next =>
    have hkept := List.reverse_prefix.mpr (List.dropWhile_suffix isIdle (l := parts.reverse))
    rwa [List.reverse_reverse] at hkept

/-- Parts that are put together are the parts again. -/
theorem steps_intercalate (hparts : ∀ part ∈ parts, '/' ∉ part) :
    Path.steps (List.intercalate "/" parts) = parts.filterMap stepOf? := by
  by_cases hnil : parts = []
  · subst hnil
    rfl
  · rw [steps_eq]
    exact congrArg _ (List.splitOn_intercalate '/' hparts hnil)

/-- The root is one more part, an empty one. -/
theorem splitOn_eq_segments (path : Path) :
    path.splitOn '/' = (if isAbsolute path then [[]] else []) ++ segments path := by
  rw [segments]
  split
  next habsolute =>
    cases path with
    | nil => cases habsolute
    | cons c rest =>
        rw [isAbsolute_cons, decide_eq_true_eq] at habsolute
        subst habsolute
        exact splitOn_append_cons [] rest
  next => rfl

theorem steps_eq_segments (path : Path) : path.steps = (segments path).filterMap stepOf? := by
  rw [steps_eq, splitOn_eq_segments, List.filterMap_append]
  split <;> rfl

/-- The parts of a relative path are the last parts of every path that it is joined to. -/
theorem exists_segments_join_of_relative (base : Path) {path : Path} (hpath : isAbsolute path = false) :
    ∃ before, segments (join base path) = before ++ segments path := by
  have hrelative : path.splitOn '/' = segments path := by
    rw [segments, hpath, if_neg Bool.false_ne_true]
  have hbehind (front : Text) (hjoin : join base path = front ++ '/' :: path) :
      ∃ before, segments (join base path) = before ++ segments path := by
    have hparts := splitOn_eq_segments (join base path)
    rw [hjoin, splitOn_append_cons, hrelative, ← hjoin] at hparts
    split at hparts
    · -- the first part stands for the root and is none of the parts of an absolute path
      obtain ⟨first, before, hfront⟩ := List.exists_cons_of_ne_nil (List.splitOn_ne_nil '/' front)
      rw [hfront] at hparts
      exact ⟨before, (List.cons.inj hparts).2.symm⟩
    · exact ⟨_, hparts.symm⟩
  rcases join_cases base hpath with ⟨-, hjoin⟩ | ⟨front, -, hjoin⟩ | ⟨-, hjoin⟩
  · exact ⟨[], by rw [hjoin]; rfl⟩
  · exact hbehind front hjoin
  · exact hbehind base hjoin

/-- A name that is joined to a path is its last part. -/
theorem exists_segments_join (base : Path) {name : Path} (hname : IsSegment name) :
    ∃ before, segments (join base name) = before ++ [name] := by
  obtain ⟨before, hbefore⟩ := exists_segments_join_of_relative base hname.isAbsolute_eq
  rw [hname.segments_eq] at hbefore
  exact ⟨before, hbefore⟩

/-- A path keeps its last name when it is joined to another one. -/
theorem fileName?_join {path name : Path} (base : Path) (hname : fileName? path = some name) :
    fileName? (join base path) = some name := by
  obtain ⟨hsegment, before, idle, hparts, hidle⟩ := fileName?_eq_some hname
  by_cases hpath : isAbsolute path = true
  · rwa [join, if_pos hpath]
  · obtain ⟨front, hfront⟩ := exists_segments_join_of_relative base (Bool.eq_false_iff.mpr hpath)
    rw [hparts, ← List.append_assoc] at hfront
    exact fileName?_of_segments hsegment hfront hidle

/-- The first part of a relative path is empty only if the path is. -/
theorem isAbsolute_intercalate (hrelative : isAbsolute path = false) (hparts : parts <+: segments path) :
    isAbsolute (List.intercalate "/" parts) = false := by
  cases parts with
  | nil => rfl
  | cons first rest =>
      cases path with
      | nil =>
          obtain ⟨more, hmore⟩ := hparts
          obtain ⟨rfl, hrest⟩ := List.cons.inj hmore
          rw [(List.append_eq_nil_iff.mp hrest).1]
          rfl
      | cons c path =>
          rw [isAbsolute_cons, decide_eq_false_iff_not] at hrelative
          have hsegments : segments (c :: path) = ((path.splitOn '/').modifyHead (List.cons c)) := by
            rw [segments, isAbsolute_cons, decide_eq_false hrelative, if_neg Bool.false_ne_true,
              List.splitOn_cons_eq_if_modifyHead, if_neg (by simpa using hrelative)]
          obtain ⟨head, others, hsplit⟩ := List.exists_cons_of_ne_nil (List.splitOn_ne_nil '/' path)
          rw [hsegments, hsplit, List.modifyHead_cons] at hparts
          obtain ⟨rfl, -⟩ := List.cons_prefix_cons.mp hparts
          cases rest <;> exact (isAbsolute_cons c _).trans (decide_eq_false hrelative)

/-- A parent has the first of its path's parts, and not the last one. -/
theorem parent?_eq_some (hparent : parent? path = some parent) :
    isAbsolute parent = isAbsolute path ∧
      ∃ kept, kept <+: (withoutIdleEnd path (segments path)).dropLast ∧
        parent.steps = kept.filterMap stepOf? := by
  have hkept : withoutIdleEnd path (withoutIdleEnd path (segments path)).dropLast <+:
      (withoutIdleEnd path (segments path)).dropLast := withoutIdleEnd_shortens path _
  have hsegments := (hkept.trans (List.dropLast_prefix _)).trans (withoutIdleEnd_shortens path _)
  unfold parent? at hparent
  cases hparts : withoutIdleEnd path (segments path) with
  | nil =>
      rw [hparts] at hparent
      cases hparent
  | cons first rest =>
      rw [hparts] at hparent hkept hsegments
      dsimp only at hparent
      generalize withoutIdleEnd path (first :: rest).dropLast = kept at hkept hparent hsegments
      have hsteps : Path.steps (List.intercalate "/" kept) = kept.filterMap stepOf? :=
        steps_intercalate fun part hpart => noSeparator_of_mem_segments (hsegments.subset hpart)
      split at hparent
      next habsolute =>
        cases hparent
        refine ⟨habsolute.symm ▸ rfl, kept, hkept, ?_⟩
        rw [← List.nil_append ('/' :: _), steps_append_cons, hsteps]
        rfl
      next hrelative =>
        rw [Bool.not_eq_true] at hrelative
        cases hparent
        exact ⟨(isAbsolute_intercalate hrelative hsegments).trans hrelative.symm, kept, hkept, hsteps⟩

theorem onWay_of_parent? (hparent : parent? path = some parent) : OnWay parent path := by
  obtain ⟨habsolute, kept, hkept, hsteps⟩ := parent?_eq_some hparent
  have hsegments := (hkept.trans (List.dropLast_prefix _)).trans (withoutIdleEnd_shortens path _)
  exact ⟨habsolute, by rw [hsteps, steps_eq_segments path]; exact hsegments.filterMap _⟩

/-- The parent of a name in a directory leads no further than the directory. -/
theorem onWay_of_parent?_join {base name : Path} (hname : IsSegment name)
    (hparent : parent? (join base name) = some parent) : OnWay parent base := by
  obtain ⟨habsolute, kept, hkept, hsteps⟩ := parent?_eq_some hparent
  obtain ⟨before, hbefore⟩ := exists_segments_join base hname
  rw [hbefore, withoutIdleEnd_of_last _ _ hname.isIdle_eq, List.dropLast_concat] at hkept
  refine ⟨habsolute.trans (isAbsolute_join hname.isAbsolute_eq), ?_⟩
  have hbase : base.steps = before.filterMap stepOf? := by
    have hjoin := @steps_join base name hname.isAbsolute_eq
    rw [steps_eq_segments, hbefore, List.filterMap_append, hname.steps_eq] at hjoin
    have hlast : [name].filterMap stepOf? = [Step.name name] := by
      rw [List.filterMap_cons, hname.stepOf?_eq]
      rfl
    rw [hlast] at hjoin
    exact (List.append_cancel_right hjoin).symm
  rw [hsteps, hbase]
  exact hkept.filterMap _

theorem onWay_of_mem_go {fuel : Nat} (hmem : upper ∈ lineage.go fuel path) : OnWay upper path := by
  induction fuel generalizing path with
  | zero => cases hmem
  | succ fuel ih =>
      rw [lineage.go] at hmem
      split at hmem
      · cases hmem
      · split at hmem
        · cases hmem
        next parent hparent =>
          rcases List.mem_cons.mp hmem with rfl | hmem
          · exact .refl upper
          · exact (ih hmem).trans (onWay_of_parent? hparent)

/-- A name in a directory is the first path of its lineage. -/
theorem exists_lineage_join (base : Path) {name : Path} (hname : IsSegment name) :
    ∃ upper, lineage (join base name) = join base name :: upper := by
  obtain ⟨before, hbefore⟩ := exists_segments_join base hname
  obtain ⟨parent, hparent⟩ : ∃ parent, parent? (join base name) = some parent := by
    unfold parent?
    rw [hbefore, withoutIdleEnd_of_last _ _ hname.isIdle_eq]
    cases before <;> exact ⟨_, rfl⟩
  have hne : join base name ≠ [] := by
    intro hnil
    rw [hnil] at hparent
    cases hparent
  obtain ⟨c, rest, hcons⟩ := List.exists_cons_of_ne_nil hne
  rw [lineage, hcons, List.length_cons, lineage.go, ← hcons, hparent, if_neg (by simp [hcons])]
  exact ⟨_, rfl⟩

theorem onWay_of_mem_lineage (hmem : upper ∈ lineage path) : OnWay upper path := onWay_of_mem_go hmem

/-! ## Paths below a directory -/

/-- The path leads down from the base by names alone. -/
structure Below (base : Path) (names : List Text) (path : Path) : Prop where
  isAbsolute : Path.isAbsolute path = Path.isAbsolute base
  steps : path.steps = base.steps ++ names.map Step.name

theorem Below.refl (base : Path) : Below base [] base := ⟨rfl, (List.append_nil _).symm⟩

theorem Below.trans {base dir : Path} {names more : List Text} (hdir : Below base names dir)
    (hpath : Below dir more path) : Below base (names ++ more) path where
  isAbsolute := hpath.isAbsolute.trans hdir.isAbsolute
  steps := by rw [hpath.steps, hdir.steps, List.map_append, List.append_assoc]

theorem Below.join {base name : Path} {names : List Text} (hbelow : Below base names path)
    (hname : IsSegment name) : Below base (names ++ [name]) (join path name) where
  isAbsolute := (isAbsolute_join hname.isAbsolute_eq).trans hbelow.isAbsolute
  steps := by
    rw [steps_join hname.isAbsolute_eq, hname.steps_eq, hbelow.steps, List.map_append,
      List.append_assoc]
    rfl

/-- Names that are joined one after another lead down by these names. -/
theorem Below.joinAll {base : Path} {names place : List Text} (hbelow : Below base names path)
    (hplace : ∀ name ∈ place, IsSegment name) :
    Below base (names ++ place) (Path.joinAll path place) := by
  induction place generalizing path names with
  | nil => rwa [List.append_nil]
  | cons name place ih =>
      obtain ⟨hname, hrest⟩ := List.forall_mem_cons.mp hplace
      rw [List.append_cons]
      exact ih (hbelow.join hname) hrest

/-- Names that are put together start where they are. -/
theorem isAbsolute_intercalate_names {place : List Text} (hplace : ∀ name ∈ place, IsSegment name) :
    Path.isAbsolute (List.intercalate "/" place) = false := by
  cases place with
  | nil => rfl
  | cons first rest =>
      have hfirst := hplace first List.mem_cons_self
      cases rest with
      | nil => simpa using hfirst.isAbsolute_eq
      | cons => exact (isAbsolute_append hfirst.ne_nil _).trans hfirst.isAbsolute_eq

/-- Names that are put together lead down by these names. -/
theorem Below.join_intercalate {base : Path} {names place : List Text} (hbelow : Below base names path)
    (hplace : ∀ name ∈ place, IsSegment name) :
    Below base (names ++ place) (Path.join path (List.intercalate "/" place)) := by
  have hsteps : Path.steps (List.intercalate "/" place) = place.map Step.name := by
    rw [steps_intercalate fun name hname => (hplace name hname).noSeparator]
    exact List.filterMap_eq_map_iff_forall_eq_some.mpr fun name hname => (hplace name hname).stepOf?_eq
  have habsolute := isAbsolute_intercalate_names hplace
  refine ⟨(isAbsolute_join habsolute).trans hbelow.isAbsolute, ?_⟩
  rw [steps_join habsolute, hsteps, hbelow.steps, List.map_append, List.append_assoc]

/-- Names that are put together lead where they lead one after another. -/
theorem join_intercalate_eq {place : List Text} (hplace : ∀ name ∈ place, IsSegment name) (hne : place ≠ [])
    (base : Path) : join base (List.intercalate "/" place) = joinAll base place := by
  induction place generalizing base with
  | nil => exact absurd rfl hne
  | cons name place ih =>
      obtain ⟨hname, hrest⟩ := List.forall_mem_cons.mp hplace
      cases place with
      | nil => rw [List.intercalate_singleton]; rfl
      | cons second rest =>
          have hjoin := ih hrest (List.cons_ne_nil _ _) (join base name)
          rw [join_join hname (isAbsolute_intercalate_names hrest)] at hjoin
          rw [List.intercalate_cons_cons, List.append_assoc]
          exact hjoin

theorem joinAll_concat (base : Path) (front : List Text) (name : Text) :
    joinAll base (front ++ [name]) = join (joinAll base front) name :=
  List.foldl_append

end ServiceScaffold.Path
