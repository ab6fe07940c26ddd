import ServiceScaffold.FileTree.Locate
import ServiceScaffold.Proofs.Text.Run

/-! # Paths and their steps

The steps of two joined paths are the steps of the first and then those of the second. A path whose
last name is known has the step to that name behind all steps that lead elsewhere.
-/

namespace ServiceScaffold

theorem Text.notMem_of_mem_splitOn {mark : Char} {text part : Text}
    (hpart : part ∈ text.splitOn mark) : mark ∉ part := by
  induction text generalizing part with
  | nil =>
      rw [List.mem_singleton.mp hpart]
      exact List.not_mem_nil
  | cons c text ih =>
      rw [List.splitOn_cons_eq_if_modifyHead] at hpart
      split at hpart
      next =>
        rcases List.mem_cons.mp hpart with rfl | hpart
        · exact List.not_mem_nil
        · exact ih hpart
      next hc =>
        obtain ⟨first, others, hparts⟩ := List.exists_cons_of_ne_nil (List.splitOn_ne_nil mark text)
        rw [hparts] at hpart ih
        rcases List.mem_cons.mp hpart with rfl | hpart
        · rintro (_ | ⟨_, hmem⟩)
          · simp at hc
          · exact ih List.mem_cons_self hmem
        · exact ih (List.mem_cons_of_mem _ hpart)

namespace Path

variable {base path name : Path}

/-- An ordinary name: it has no separator, and it does not lead here or up. -/
structure IsSegment (name : Text) : Prop where
  noSeparator : '/' ∉ name
  ne_nil : name ≠ []
  ne_here : name ≠ "."
  ne_up : name ≠ ".."

/-- What ends in more than two characters, none of them a separator, leads neither here nor up. -/
theorem isSegment_append {front ending : Text} (hfront : '/' ∉ front) (hending : '/' ∉ ending)
    (hlong : 2 < ending.length) : IsSegment (front ++ ending) := by
  have hlength : 2 < (front ++ ending).length := by
    rw [List.length_append]
    exact Nat.lt_add_left _ hlong
  refine ⟨?_, ?_, ?_, ?_⟩
  · exact fun hmem => (List.mem_append.mp hmem).elim hfront hending
  all_goals
    intro heq
    rw [heq] at hlength
    revert hlength
    decide

/-- The step that a part between separators stands for. -/
def stepOf? (segment : Text) : Option Step :=
  if segment.isEmpty then none
  else if segment = "." then some .here
  else if segment = ".." then some .up
  else some (.name segment)

theorem steps_eq (path : Path) : path.steps = (path.splitOn '/').filterMap stepOf? := rfl

theorem IsSegment.stepOf?_eq (hname : IsSegment name) : stepOf? name = some (.name name) := by
  have hempty : name.isEmpty = false := by simpa using hname.ne_nil
  simp only [stepOf?, hempty, hname.ne_here, hname.ne_up, if_false, Bool.false_eq_true]

theorem IsSegment.steps_eq (hname : IsSegment name) : name.steps = [.name name] := by
  rw [Path.steps_eq, List.splitOn_eq_singleton hname.noSeparator, List.filterMap_cons,
    hname.stepOf?_eq]
  rfl

theorem isAbsolute_cons (c : Char) (rest : Text) : isAbsolute (c :: rest) = decide (c = '/') := by
  unfold isAbsolute
  split
  next heq => exact (decide_eq_true (List.cons.inj heq).1).symm
  next hother => exact (decide_eq_false fun heq => hother rest (by rw [heq])).symm

theorem IsSegment.isAbsolute_eq (hname : IsSegment name) : isAbsolute name = false := by
  cases name with
  | nil => rfl
  | cons c rest =>
      rw [isAbsolute_cons]
      exact decide_eq_false fun heq => hname.noSeparator (heq ▸ List.mem_cons_self)

theorem IsSegment.ending_eq (hname : IsSegment name) : name.ending = [] := by
  rw [Path.ending, if_neg]
  intro hlast
  exact hname.noSeparator (List.mem_of_getLast? hlast)

theorem splitOn_append_cons (before after : Text) :
    (before ++ '/' :: after).splitOn '/' = before.splitOn '/' ++ after.splitOn '/' :=
  List.splitOnP_append_cons before after (by decide)

theorem steps_append_cons (before after : Text) :
    Path.steps (before ++ '/' :: after) = Path.steps before ++ Path.steps after := by
  rw [steps_eq, splitOn_append_cons, List.filterMap_append]
  rfl

/-! ## Joined paths -/

/-- A relative path stands behind its base and a separator, unless the base is empty or has that
separator already. -/
theorem join_cases (base : Path) (hpath : isAbsolute path = false) :
    (base = [] ∧ join base path = path) ∨
      (∃ front, base = front ++ ['/'] ∧ join base path = front ++ '/' :: path) ∨
        (base ≠ [] ∧ join base path = base ++ '/' :: path) := by
  rw [join, hpath, if_neg Bool.false_ne_true]
  by_cases hempty : base = []
  · subst hempty
    exact Or.inl ⟨rfl, rfl⟩
  · by_cases hlast : base.getLast? = some '/'
    · obtain ⟨front, rfl⟩ := List.getLast?_eq_some_iff.mp hlast
      refine Or.inr (Or.inl ⟨front, rfl, ?_⟩)
      rw [if_pos (by simp), List.append_assoc, List.singleton_append]
    · refine Or.inr (Or.inr ⟨hempty, ?_⟩)
      rw [if_neg (by simp [hempty, hlast])]

theorem steps_join (hpath : isAbsolute path = false) :
    (join base path).steps = base.steps ++ path.steps := by
  rcases join_cases base hpath with ⟨rfl, hjoin⟩ | ⟨front, rfl, hjoin⟩ | ⟨-, hjoin⟩
  · rw [hjoin]
    rfl
  · -- the separator at the end of the base adds an empty part, which is no step
    have hend : Path.steps (front ++ ['/']) = Path.steps front := by
      rw [steps_append_cons]
      exact List.append_nil _
    rw [hjoin, steps_append_cons, hend]
  · rw [hjoin, steps_append_cons]

theorem isAbsolute_append (hbase : base ≠ []) (rest : Text) :
    isAbsolute (base ++ rest) = isAbsolute base := by
  cases base with
  | nil => exact absurd rfl hbase
  | cons c base => rw [List.cons_append, isAbsolute_cons, isAbsolute_cons]

theorem isAbsolute_join (hpath : isAbsolute path = false) :
    isAbsolute (join base path) = isAbsolute base := by
  rcases join_cases base hpath with ⟨rfl, hjoin⟩ | ⟨front, rfl, hjoin⟩ | ⟨hbase, hjoin⟩
  · rw [hjoin, hpath]
    rfl
  · have hassoc : front ++ '/' :: path = (front ++ ['/']) ++ path := by simp
    rw [hjoin, hassoc, isAbsolute_append (by simp)]
  · rw [hjoin, isAbsolute_append hbase]

/-- What stands in front of a relative path that is joined to a base depends on the base alone. -/
theorem exists_front (base : Path) :
    ∃ front, ∀ path, isAbsolute path = false → join base path = front ++ path := by
  by_cases hplain : (base.isEmpty || base.getLast? = some '/') = true
  · refine ⟨base, fun path hpath => ?_⟩
    rw [join, hpath, if_neg Bool.false_ne_true, if_pos hplain]
  · refine ⟨base ++ ['/'], fun path hpath => ?_⟩
    rw [join, hpath, if_neg Bool.false_ne_true, if_neg hplain, List.append_assoc,
      List.singleton_append]

theorem ending_join (hpath : isAbsolute path = false) (hne : path ≠ []) :
    (join base path).ending = path.ending := by
  obtain ⟨front, hfront⟩ := exists_front base
  rw [ending, ending, hfront path hpath, List.getLast?_append_of_ne_nil _ hne]

theorem join_join (hname : IsSegment name) (hpath : isAbsolute path = false) :
    join (join base name) path = join base (name ++ '/' :: path) := by
  obtain ⟨front, hfront⟩ := exists_front base
  have hbehind : isAbsolute (name ++ '/' :: path) = false := by
    rw [isAbsolute_append hname.ne_nil, hname.isAbsolute_eq]
  have hopen : ((front ++ name).isEmpty || (front ++ name).getLast? = some '/') = false := by
    rw [List.getLast?_append_of_ne_nil _ hname.ne_nil, Bool.or_eq_false_iff]
    refine ⟨by simp [hname.ne_nil], decide_eq_false fun hlast => ?_⟩
    exact hname.noSeparator (List.mem_of_getLast? hlast)
  rw [hfront name hname.isAbsolute_eq, hfront _ hbehind, join, hpath, hopen,
    if_neg Bool.false_ne_true, if_neg Bool.false_ne_true, List.append_assoc]

/-! ## The last name -/

theorem noSeparator_of_mem_segments {path segment : Text} (hmem : segment ∈ segments path) :
    '/' ∉ segment := Text.notMem_of_mem_splitOn hmem

/-- A path with a last name has it before nothing but idle parts. -/
theorem exists_withoutIdleEnd {parts : List Text} {last : Text} (hlast : last ≠ ".")
    (hparts : (withoutIdleEnd path parts).getLast? = some last) :
    isIdle last = false ∧ ∃ before idle, parts = before ++ last :: idle ∧
      ∀ part ∈ idle, isIdle part = true := by
  unfold withoutIdleEnd at hparts
  split at hparts
  next =>
    -- nothing is kept, or a `.` that stands alone
    split at hparts
    · exact absurd (Option.some.inj hparts).symm hlast
    · cases hparts
  next kept hkept =>
    obtain ⟨before, hbefore⟩ := List.getLast?_eq_some_iff.mp hparts
    have hdrop : parts.reverse.dropWhile isIdle = last :: before.reverse := by
      rw [← List.reverse_reverse (parts.reverse.dropWhile isIdle), hbefore, List.reverse_append]
      rfl
    refine ⟨?_, before, (parts.reverse.takeWhile isIdle).reverse, ?_, ?_⟩
    · have hhead := List.head?_dropWhile_not isIdle parts.reverse
      rw [hdrop] at hhead
      simpa using hhead
    · calc parts
          _ = (parts.reverse.takeWhile isIdle ++ parts.reverse.dropWhile isIdle).reverse := by
            rw [List.takeWhile_append_dropWhile, List.reverse_reverse]
          _ = before ++ last :: (parts.reverse.takeWhile isIdle).reverse := by
            rw [hdrop]
            simp
    · intro part hpart
      exact List.mem_takeWhile_imp (List.mem_reverse.mp hpart)

theorem fileName?_eq_some (hname : fileName? path = some name) :
    IsSegment name ∧ ∃ before idle, segments path = before ++ name :: idle ∧
      ∀ part ∈ idle, isIdle part = true := by
  unfold fileName? at hname
  split at hname
  next last hlast =>
    split at hname
    · cases hname
    next hdots =>
      rw [Bool.or_eq_true, decide_eq_true_eq, decide_eq_true_eq, not_or] at hdots
      cases hname
      obtain ⟨hidle, before, idle, hparts, hrest⟩ := exists_withoutIdleEnd hdots.1 hlast
      refine ⟨⟨?_, ?_, hdots.1, hdots.2⟩, before, idle, hparts, hrest⟩
      · refine @noSeparator_of_mem_segments path name ?_
        rw [hparts]
        exact List.mem_append_right _ List.mem_cons_self
      · rintro rfl
        cases hidle
  next => cases hname

theorem IsSegment.isIdle_eq (hname : IsSegment name) : isIdle name = false := by
  have hhere : name ≠ ['.'] := by simpa using hname.ne_here
  simp [isIdle, hname.ne_nil, hhere]

theorem IsSegment.segments_eq (hname : IsSegment name) : segments name = [name] := by
  rw [segments, hname.isAbsolute_eq]
  exact List.splitOn_eq_singleton hname.noSeparator

theorem withoutIdleEnd_append {before idle : List Text} {last : Text} (path : Path)
    (hlast : isIdle last = false) (hidle : ∀ part ∈ idle, isIdle part = true) :
    withoutIdleEnd path (before ++ last :: idle) = before ++ [last] := by
  have hreverse : (before ++ last :: idle).reverse = idle.reverse ++ last :: before.reverse := by simp
  have hdrop : (before ++ last :: idle).reverse.dropWhile isIdle = last :: before.reverse := by
    rw [hreverse, List.dropWhile_append_of_pos fun part hpart => hidle part (List.mem_reverse.mp hpart),
      List.dropWhile_cons_of_neg (by simp [hlast])]
  unfold withoutIdleEnd
  rw [hdrop, List.reverse_cons, List.reverse_reverse]
  split
  next hnil => simp at hnil
  next => rfl

theorem withoutIdleEnd_of_last {last : Text} (path : Path) (before : List Text)
    (hlast : isIdle last = false) : withoutIdleEnd path (before ++ [last]) = before ++ [last] :=
  withoutIdleEnd_append path hlast fun _ hpart => absurd hpart List.not_mem_nil

/-- A name with nothing but idle parts behind it is the last name. -/
theorem fileName?_of_segments {before idle : List Text} (hname : IsSegment name)
    (hparts : segments path = before ++ name :: idle) (hidle : ∀ part ∈ idle, isIdle part = true) :
    fileName? path = some name := by
  have hhere : name ≠ ['.'] := by simpa using hname.ne_here
  have hup : name ≠ ['.', '.'] := by simpa using hname.ne_up
  rw [fileName?, hparts, withoutIdleEnd_append path hname.isIdle_eq hidle, List.getLast?_concat]
  simp [hhere, hup]

/-- An ordinary name is the last name of itself. -/
theorem IsSegment.fileName?_eq (hname : IsSegment name) : fileName? name = some name :=
  @fileName?_of_segments name name [] [] hname hname.segments_eq fun _ hpart =>
    absurd hpart List.not_mem_nil

end Path

end ServiceScaffold
