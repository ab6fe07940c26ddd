import Mathlib.Data.List.Basic
import Mathlib.Data.List.TakeWhile
import ServiceScaffold.Text.Blank

/-! # Runs and cuts

What the readers of the library rest on: a run of a class of characters is taken whole when the
text after it starts outside the class, and a text is cut at the first place of a separator. What
joins texts is cut off in front of each of them but the first.
-/

namespace ServiceScaffold.Text

variable {drops : Char → Bool} {run rest text before after : Text} {mark : Char}

/-- A run that stops inside the text, or in front of `rest`, is not longer for what follows it. -/
theorem takeWhile_append_of_stop
    (hstop : (∃ c ∈ text, drops c = false) ∨ ∀ c ∈ rest.head?, drops c = false) :
    (text ++ rest).takeWhile drops = text.takeWhile drops := by
  induction text with
  | nil =>
      cases rest with
      | nil => rfl
      | cons c rest =>
          have hc : drops c = false := (hstop.resolve_left (by simp)) c rfl
          simp [hc]
  | cons c text ih =>
      rw [List.cons_append, List.takeWhile_cons, List.takeWhile_cons]
      split
      next hc =>
        rw [ih (hstop.imp_left ?_)]
        rintro ⟨d, hd, hfalse⟩
        rcases List.mem_cons.mp hd with rfl | hd
        · simp [hc] at hfalse
        · exact ⟨d, hd, hfalse⟩
      next => rfl

theorem dropWhile_append_of_stop
    (hstop : (∃ c ∈ text, drops c = false) ∨ ∀ c ∈ rest.head?, drops c = false) :
    (text ++ rest).dropWhile drops = text.dropWhile drops ++ rest := by
  have hwhole := List.takeWhile_append_dropWhile (p := drops) (l := text ++ rest)
  rw [takeWhile_append_of_stop hstop] at hwhole
  refine List.append_cancel_left (hwhole.trans ?_)
  rw [← List.append_assoc, List.takeWhile_append_dropWhile]

theorem takeWhile_run (hrun : ∀ c ∈ run, drops c = true)
    (hrest : ∀ c ∈ rest.head?, drops c = false) : (run ++ rest).takeWhile drops = run := by
  rw [takeWhile_append_of_stop (Or.inr hrest), List.takeWhile_eq_self_iff.mpr hrun]

theorem dropWhile_run (hrun : ∀ c ∈ run, drops c = true)
    (hrest : ∀ c ∈ rest.head?, drops c = false) : (run ++ rest).dropWhile drops = rest := by
  rw [dropWhile_append_of_stop (Or.inr hrest), List.dropWhile_eq_nil_iff.mpr hrun, List.nil_append]

theorem splitFirst?_eq_some_iff :
    splitFirst? mark text = some (before, after) ↔ mark ∉ before ∧ text = before ++ mark :: after := by
  induction text generalizing before with
  | nil => simp [splitFirst?]
  | cons c rest ih =>
      unfold splitFirst?
      split
      next hmark =>
        subst hmark
        cases before with
        | nil => simp
        | cons d before =>
            constructor
            · intro hnone
              simp at hnone
            · rintro ⟨hbefore, heq⟩
              exact absurd (List.mem_cons.mpr (Or.inl (List.cons.inj heq).1)) hbefore
      next hmark =>
        simp only [Option.map_eq_some_iff, Prod.exists, Prod.mk.injEq]
        constructor
        · rintro ⟨inner, tail, hsplit, rfl, rfl⟩
          obtain ⟨hinner, rfl⟩ := ih.mp hsplit
          exact ⟨by simp [hinner, Ne.symm hmark], rfl⟩
        · rintro ⟨hbefore, heq⟩
          cases before with
          | nil => exact absurd (List.cons.inj heq).1 hmark
          | cons d inner =>
              obtain ⟨rfl, rfl⟩ := List.cons.inj heq
              exact ⟨inner, after, ih.mpr ⟨fun h => hbefore (List.mem_cons_of_mem _ h), rfl⟩,
                rfl, rfl⟩

theorem isBlankText_iff : isBlankText text = true ↔ ∀ c ∈ text, isBlank c = true := List.all_eq_true

@[simp] theorem isBlankText_append :
    isBlankText (before ++ after) = (isBlankText before && isBlankText after) := List.all_append

/-- Trimming takes white space off both ends and nothing else. -/
theorem exists_trim (text : Text) :
    ∃ before after, text = before ++ trim text ++ after ∧
      isBlankText before = true ∧ isBlankText after = true := by
  have hcut (inner : Text) : ∃ after, inner =
      (inner.reverse.dropWhile isBlank).reverse ++ after ∧ isBlankText after = true := by
    refine ⟨(inner.reverse.takeWhile isBlank).reverse, ?_, ?_⟩
    · rw [← List.reverse_append, List.takeWhile_append_dropWhile, List.reverse_reverse]
    · rw [isBlankText_iff]
      intro c hc
      exact List.mem_takeWhile_imp (List.mem_reverse.mp hc)
  obtain ⟨after, hafter, hblank⟩ := hcut (text.dropWhile isBlank)
  refine ⟨text.takeWhile isBlank, after, ?_, List.all_takeWhile, hblank⟩
  rw [List.append_assoc, trim, trimBoth, ← hafter, List.takeWhile_append_dropWhile]

theorem trim_eq_nil_iff : trim text = [] ↔ isBlankText text = true := by
  constructor
  · intro hnil
    obtain ⟨before, after, htext, hbefore, hafter⟩ := exists_trim text
    rw [htext, hnil, List.append_nil, isBlankText_append, hbefore, hafter]
    rfl
  · intro hblank
    rw [trim, trimBoth, List.dropWhile_eq_nil_iff.mpr (isBlankText_iff.mp hblank)]
    rfl

/-- The front of a text belongs to its first part. -/
theorem exists_splitOn_front (mark : Char) (text : Text) :
    ∃ first others, ∀ front, mark ∉ front →
      (front ++ text).splitOn mark = (front ++ first) :: others := by
  obtain ⟨first, others, hparts⟩ := List.exists_cons_of_ne_nil (List.splitOn_ne_nil mark text)
  refine ⟨first, others, fun front hfront => ?_⟩
  induction front with
  | nil => exact hparts
  | cons c front ih =>
      obtain ⟨hc, hfront⟩ := List.ne_and_not_mem_of_not_mem_cons hfront
      rw [List.cons_append, List.splitOn_cons_eq_if_modifyHead, if_neg (by simpa using Ne.symm hc),
        ih hfront]
      rfl

/-- The end of a text belongs to its last part. -/
theorem exists_splitOn_end (mark : Char) (text : Text) :
    ∃ others last, ∀ tail, mark ∉ tail →
      (text ++ tail).splitOn mark = others ++ [last ++ tail] := by
  induction text with
  | nil => exact ⟨[], [], fun tail htail => List.splitOn_eq_singleton htail⟩
  | cons c text ih =>
      obtain ⟨others, last, hparts⟩ := ih
      by_cases hc : c = mark
      · refine ⟨[] :: others, last, fun tail htail => ?_⟩
        rw [List.cons_append, List.splitOn_cons_eq_if_modifyHead, if_pos (by simpa using hc),
          hparts tail htail]
        rfl
      · cases others with
        | nil =>
            refine ⟨[], c :: last, fun tail htail => ?_⟩
            rw [List.cons_append, List.splitOn_cons_eq_if_modifyHead, if_neg (by simpa using hc),
              hparts tail htail]
            rfl
        | cons first others =>
            refine ⟨(c :: first) :: others, last, fun tail htail => ?_⟩
            rw [List.cons_append, List.splitOn_cons_eq_if_modifyHead, if_neg (by simpa using hc),
              hparts tail htail]
            rfl

theorem isPrefixOf?_append (front rest : Text) : front.isPrefixOf? (front ++ rest) = some rest :=
  List.isPrefixOf?_eq_some_iff_append_eq.mpr rfl

theorem intercalate_cons (sep first : Text) (others : List Text) :
    List.intercalate sep (first :: others) = first ++ others.flatMap (sep ++ ·) := by
  induction others generalizing first with
  | nil => simp
  | cons second others ih =>
      rw [List.intercalate_cons_cons, ih, List.flatMap_cons, List.append_assoc, List.append_assoc]

/-- What stands in no part and not between the parts does not stand in what they are joined to. -/
theorem notMem_intercalate {c : Char} {sep : Text} {parts : List Text} (hsep : c ∉ sep)
    (hparts : ∀ part ∈ parts, c ∉ part) : c ∉ List.intercalate sep parts := by
  cases parts with
  | nil => exact List.not_mem_nil
  | cons first others =>
      obtain ⟨hfirst, hothers⟩ := List.forall_mem_cons.mp hparts
      rw [intercalate_cons, List.mem_append, List.mem_flatMap]
      rintro (hmem | ⟨part, hpart, hmem⟩)
      · exact hfirst hmem
      · exact (List.mem_append.mp hmem).elim hsep (hothers part hpart)

end ServiceScaffold.Text
