import ServiceScaffold.Proofs.Service.Word

/-! # Reading parameter names

Each part of a parameter list gives one name: the first word that a mark follows, or else the word
at its end, or else the placeholder. White space around a part does not matter, so the white space
that is trimmed off the whole list does not either.
-/

namespace ServiceScaffold.Parameter

variable {text more blanks : Text}

/-! ## Words -/

/-- Does the text leave the reader inside a word? -/
def endsInWord (inWord : Bool) (text : Text) : Bool := text.foldl (fun _ c => isWordChar c) inWord

theorem wordEnds_append (inWord : Bool) (text more : Text) :
    wordEnds inWord (text ++ more) =
      (wordEnds inWord text).map (· ++ more) ++ wordEnds (endsInWord inWord text) more := by
  induction text generalizing inWord with
  | nil => rfl
  | cons c text ih =>
      rw [List.cons_append, wordEnds, wordEnds]
      split
      next hstart =>
        have hword : isWordChar c = true := by simp_all
        rw [ih, List.map_cons, List.cons_append, endsInWord, endsInWord, List.foldl_cons, hword,
          List.cons_append]
      next => rw [ih, endsInWord, endsInWord, List.foldl_cons]

/-- Where no word character stands no word starts. -/
theorem wordEnds_eq_nil {inWord : Bool} (htext : ∀ c ∈ text, isWordChar c = false) :
    wordEnds inWord text = [] := by
  induction text generalizing inWord with
  | nil => rfl
  | cons c text ih =>
      obtain ⟨hc, htext⟩ := List.forall_mem_cons.mp htext
      rw [wordEnds, if_neg (by simp [hc]), ih htext]

/-- Inside a word no other word starts. -/
theorem wordEnds_run (htext : ∀ c ∈ text, isWordChar c = true) (more : Text) :
    wordEnds true (text ++ more) = wordEnds true more := by
  induction text with
  | nil => rfl
  | cons c text ih =>
      obtain ⟨hc, htext⟩ := List.forall_mem_cons.mp htext
      rw [List.cons_append, wordEnds, if_neg (by simp), hc, ih htext]

theorem exists_cons_of_mem_wordEnds {inWord : Bool} {tail : Text}
    (hmem : tail ∈ wordEnds inWord text) :
    ∃ c rest, tail = c :: rest ∧ isWordChar c = true := by
  induction text generalizing inWord with
  | nil => simp [wordEnds] at hmem
  | cons c text ih =>
      rw [wordEnds] at hmem
      split at hmem
      next hstart =>
        rcases List.mem_cons.mp hmem with rfl | hmem
        · exact ⟨c, text, rfl, by simp_all⟩
        · exact ih hmem
      next => exact ih hmem

theorem suffix_of_mem_wordEnds {inWord : Bool} {tail : Text} (hmem : tail ∈ wordEnds inWord text) :
    tail <:+ text := by
  induction text generalizing inWord with
  | nil => simp [wordEnds] at hmem
  | cons c text ih =>
      rw [wordEnds] at hmem
      split at hmem
      next =>
        rcases List.mem_cons.mp hmem with rfl | hmem
        · exact List.suffix_rfl
        · exact (ih hmem).trans (List.suffix_cons _ _)
      next => exact (ih hmem).trans (List.suffix_cons _ _)

theorem isName_of_mem_words {word : Text × Text} (hmem : word ∈ words text) : IsName word.1 := by
  obtain ⟨tail, htail, rfl⟩ := List.mem_map.mp hmem
  obtain ⟨c, rest, rfl, hc⟩ := exists_cons_of_mem_wordEnds htail
  exact IsName.of_takeWhile (by simp [hc])

/-- A text whose last character stands in no word leaves the reader outside. -/
theorem endsInWord_eq_false (htext : ∀ c ∈ text.getLast?, isWordChar c = false) :
    endsInWord false text = false := by
  rcases List.eq_nil_or_concat text with rfl | ⟨front, c, rfl⟩
  · rfl
  · rw [List.concat_eq_append, endsInWord, List.foldl_append]
    exact htext c (by simp)

theorem isWordChar_of_mem_blanks (hblanks : Text.isBlankText blanks = true) :
    ∀ c ∈ blanks, isWordChar c = false :=
  fun c hc => isWordChar_of_isBlank (Text.isBlankText_iff.mp hblanks c hc)

/-- Words are read part by part when no word runs over the seam. -/
theorem words_append
    (hseam : (∀ c ∈ text.getLast?, isWordChar c = false) ∨
      ∀ c ∈ more.head?, isWordChar c = false) :
    words (text ++ more) =
      (words text).map (fun word => (word.1, word.2 ++ more)) ++ words more := by
  have hmore : wordEnds (endsInWord false text) more = wordEnds false more := by
    rcases hseam with hlast | hhead
    · rw [endsInWord_eq_false hlast]
    · cases more with
      | nil => rfl
      | cons c more =>
          have hc : isWordChar c = false := hhead c rfl
          simp [wordEnds, hc]
  rw [words, wordEnds_append, hmore, List.map_append, words, words, List.map_map, List.map_map]
  congr 1
  apply List.map_congr_left
  intro tail htail
  -- a word of the front stops inside the front, or the rest does not go on with it
  have hstop : (∃ c ∈ tail, isWordChar c = false) ∨ ∀ c ∈ more.head?, isWordChar c = false := by
    refine hseam.imp_left fun hlast => ?_
    obtain ⟨c, rest, rfl, -⟩ := exists_cons_of_mem_wordEnds htail
    obtain ⟨front, rfl⟩ := suffix_of_mem_wordEnds htail
    refine ⟨(c :: rest).getLast (List.cons_ne_nil _ _), List.getLast_mem _, hlast _ ?_⟩
    rw [List.getLast?_append_cons, List.getLast?_eq_some_getLast (List.cons_ne_nil _ _)]
    rfl
  simp only [Function.comp_apply, Text.takeWhile_append_of_stop hstop,
    Text.dropWhile_append_of_stop hstop]

theorem words_of_isBlankText (hblanks : Text.isBlankText blanks = true) : words blanks = [] := by
  rw [words, wordEnds_eq_nil (isWordChar_of_mem_blanks hblanks)]
  rfl

theorem words_blanks_append (hblanks : Text.isBlankText blanks = true) (text : Text) :
    words (blanks ++ text) = words text := by
  have hplain := isWordChar_of_mem_blanks hblanks
  rw [words_append (Or.inl fun c hc => hplain c (List.mem_of_getLast? hc)),
    words_of_isBlankText hblanks]
  rfl

theorem words_append_blanks (hblanks : Text.isBlankText blanks = true) (text : Text) :
    words (text ++ blanks) = (words text).map fun word => (word.1, word.2 ++ blanks) := by
  have hplain := isWordChar_of_mem_blanks hblanks
  rw [words_append (Or.inr fun c hc => hplain c (List.mem_of_mem_head? hc)),
    words_of_isBlankText hblanks, List.append_nil]

/-- A name at the front is the first word. -/
theorem words_name_append {word after : Text} (hname : IsName word)
    (hafter : ∀ c ∈ after.head?, isWordChar c = false) :
    words (word ++ after) = (word, after) :: words after := by
  have hends : wordEnds false (word ++ after) = (word ++ after) :: wordEnds false after := by
    obtain ⟨c, rest, rfl, hc⟩ := hname.exists_cons
    rw [List.cons_append, wordEnds, if_pos (by simp [hc]),
      wordEnds_run (List.forall_mem_cons.mp hname.word).2]
    cases after with
    | nil => rfl
    | cons d after =>
        have hd : isWordChar d = false := hafter d rfl
        simp [wordEnds, hd]
  rw [words, hends, List.map_cons, hname.takeWhile hafter, hname.dropWhile hafter]
  rfl

theorem suffix_of_mem_words {word : Text × Text} (hmem : word ∈ words text) : word.2 <:+ text := by
  obtain ⟨tail, htail, rfl⟩ := List.mem_map.mp hmem
  exact (List.dropWhile_suffix _).trans (suffix_of_mem_wordEnds htail)

/-! ## The name of a part -/

theorem isBlank_of_isMark {c : Char} (hmark : isMark c = true) : Text.isBlank c = false := by
  simp only [isMark, Bool.or_eq_true, decide_eq_true_eq] at hmark
  rcases hmark with (rfl | rfl) | rfl <;> decide

/-- A mark follows when it is the first character that is not white space. -/
theorem marked_iff : marked text = true ↔ ∃ blanks c rest,
    text = blanks ++ c :: rest ∧ Text.isBlankText blanks = true ∧ isMark c = true := by
  constructor
  · intro hmarked
    rw [marked] at hmarked
    split at hmarked
    next c rest hrest =>
      refine ⟨text.takeWhile Text.isBlank, c, rest, ?_, List.all_takeWhile, hmarked⟩
      rw [← hrest, List.takeWhile_append_dropWhile]
    next => simp at hmarked
  · rintro ⟨blanks, c, rest, rfl, hblanks, hmark⟩
    have hdrop : (blanks ++ c :: rest).dropWhile Text.isBlank = c :: rest := by
      apply Text.dropWhile_run (Text.isBlankText_iff.mp hblanks)
      rintro d hd
      obtain rfl : c = d := by simpa using hd
      exact isBlank_of_isMark hmark
    rw [marked, hdrop]
    exact hmark

theorem marked_append_blanks (hblanks : Text.isBlankText blanks = true) (text : Text) :
    marked (text ++ blanks) = marked text := by
  by_cases htext : Text.isBlankText text = true
  · have hboth : Text.isBlankText (text ++ blanks) = true := by simp [htext, hblanks]
    rw [marked, marked, List.dropWhile_eq_nil_iff.mpr (Text.isBlankText_iff.mp htext),
      List.dropWhile_eq_nil_iff.mpr (Text.isBlankText_iff.mp hboth)]
  · have hstop : ∃ c ∈ text, Text.isBlank c = false := by
      simpa [Text.isBlankText_iff] using htext
    rw [marked, marked, Text.dropWhile_append_of_stop (Or.inl hstop)]
    cases hdrop : text.dropWhile Text.isBlank with
    | nil =>
        have hblank := Text.isBlankText_iff.mpr (List.dropWhile_eq_nil_iff.mp hdrop)
        exact absurd hblank htext
    | cons c rest => rfl

/-- White space before a part does not change its name. -/
theorem name_blanks_append (hblanks : Text.isBlankText blanks = true) (text : Text) :
    name (blanks ++ text) = name text := by
  rw [name, name, words_blanks_append hblanks]

/-- White space after a part does not change its name. -/
theorem name_append_blanks (hblanks : Text.isBlankText blanks = true) (text : Text) :
    name (text ++ blanks) = name text := by
  rw [name, name, words_append_blanks hblanks, List.find?_map, List.find?_map]
  simp only [Function.comp_def, marked_append_blanks hblanks, Text.isBlankText_append, hblanks,
    Bool.and_true]
  cases (words text).find? fun word => marked word.2 with
  | some word => rfl
  | none => cases (words text).find? fun word => Text.isBlankText word.2 <;> rfl

/-- In front of a name no mark follows, and no end. -/
theorem marked_append_name {before word : Text} (hbefore : ∀ c ∈ before, isMark c = false)
    (hname : IsName word) (after : Text) : marked (before ++ (word ++ after)) = false := by
  by_contra hmarked
  obtain ⟨blanks, c, rest, heq, hblanks, hc⟩ := marked_iff.mp (Bool.of_not_eq_false hmarked)
  obtain ⟨first, tail, rfl, hfirst⟩ := hname.exists_cons
  have hne : c ≠ first := by
    rintro rfl
    simp [isWordChar_of_isMark hc] at hfirst
  -- the mark stands in `before`, is the name's first character, or has that one in its white space
  rcases List.append_eq_append_iff.mp heq with ⟨inner, hinner, htail⟩ | ⟨inner, hinner, htail⟩
  · cases inner with
    | nil => exact hne (List.cons.inj htail).1.symm
    | cons d inner =>
        obtain ⟨rfl, -⟩ := List.cons.inj htail
        have hblank := Text.isBlankText_iff.mp hblanks first (by simp [hinner])
        simp [isBlank_of_isWordChar hfirst] at hblank
  · cases inner with
    | nil => exact hne (List.cons.inj htail).1
    | cons d inner =>
        obtain ⟨rfl, -⟩ := List.cons.inj htail
        have hplain := hbefore c (by simp [hinner])
        simp [hc] at hplain

/-- The name of a part: no mark stands before it, no word ends there, and a mark or the end of the
part follows it up to white space. -/
theorem name_append {before word after : Text} (hbefore : ∀ c ∈ before, isMark c = false)
    (hstops : ∀ c ∈ before.getLast?, isWordChar c = false) (hname : IsName word)
    (hafter : Text.isBlankText after = true ∨ marked after = true) :
    name (before ++ (word ++ after)) = word := by
  have hhead : ∀ c ∈ after.head?, isWordChar c = false := by
    intro c hc
    rcases hafter with hblanks | hmarked
    · exact isWordChar_of_mem_blanks hblanks c (List.mem_of_mem_head? hc)
    · obtain ⟨blanks, mark, rest, rfl, hblanks, hmark⟩ := marked_iff.mp hmarked
      cases blanks with
      | nil =>
          obtain rfl : mark = c := by simpa using hc
          exact isWordChar_of_isMark hmark
      | cons blank blanks =>
          obtain rfl : blank = c := by simpa using hc
          exact isWordChar_of_mem_blanks hblanks _ List.mem_cons_self
  have hwords : words (before ++ (word ++ after)) = _ := words_append (Or.inl hstops)
  rw [words_name_append hname hhead] at hwords
  have hearlier : ∀ found ∈ (words before).map fun found => (found.1, found.2 ++ (word ++ after)),
      marked found.2 = false ∧ Text.isBlankText found.2 = false := by
    intro found hfound
    obtain ⟨inner, hinner, rfl⟩ := List.mem_map.mp hfound
    have hplain : ∀ c ∈ inner.2, isMark c = false :=
      fun c hc => hbefore c ((suffix_of_mem_words hinner).subset hc)
    refine ⟨marked_append_name hplain hname after, ?_⟩
    simp [hname.isBlankText]
  have hnotMarked := List.find?_eq_none.mpr fun found hfound => by
    simpa using (hearlier found hfound).1
  have hnotLast := List.find?_eq_none.mpr fun found hfound => by
    simpa using (hearlier found hfound).2
  rcases hafter with hblanks | hmarked
  · have hunmarked : marked after = false := by
      rw [marked, List.dropWhile_eq_nil_iff.mpr (Text.isBlankText_iff.mp hblanks)]
    rw [name, hwords, List.find?_append, hnotMarked, words_of_isBlankText hblanks,
      List.find?_append, hnotLast]
    simp [hunmarked, hblanks]
  · rw [name, hwords, List.find?_append, hnotMarked]
    simp [hmarked]

theorem name_front {word after : Text} (hname : IsName word)
    (hafter : Text.isBlankText after = true ∨ marked after = true) : name (word ++ after) = word :=
  name_append (List.forall_mem_nil _) (by simp) hname hafter

theorem isName_name (text : Text) : IsName (name text) := by
  rw [name]
  split
  next word hword => exact isName_of_mem_words (List.mem_of_find?_eq_some hword)
  next =>
    split
    next word hword => exact isName_of_mem_words (List.mem_of_find?_eq_some hword)
    next => exact ⟨by decide, List.all_eq_true.mp (by decide)⟩

/-! ## The names of a list -/

theorem comma_notMem_blanks (hblanks : Text.isBlankText blanks = true) : ',' ∉ blanks :=
  fun hmem => absurd (Text.isBlankText_iff.mp hblanks _ hmem) (by decide)

theorem map_name_splitOn_blanks_append (hblanks : Text.isBlankText blanks = true) (text : Text) :
    ((blanks ++ text).splitOn ',').map name = (text.splitOn ',').map name := by
  obtain ⟨first, others, hparts⟩ := Text.exists_splitOn_front ',' text
  have hwith := hparts blanks (comma_notMem_blanks hblanks)
  have hwithout := hparts [] List.not_mem_nil
  rw [List.nil_append, List.nil_append] at hwithout
  rw [hwith, hwithout, List.map_cons, List.map_cons, name_blanks_append hblanks]

theorem map_name_splitOn_append_blanks (hblanks : Text.isBlankText blanks = true) (text : Text) :
    ((text ++ blanks).splitOn ',').map name = (text.splitOn ',').map name := by
  obtain ⟨others, last, hparts⟩ := Text.exists_splitOn_end ',' text
  have hwith := hparts blanks (comma_notMem_blanks hblanks)
  have hwithout := hparts [] List.not_mem_nil
  rw [List.append_nil, List.append_nil] at hwithout
  rw [hwith, hwithout, List.map_append, List.map_append, List.map_singleton, List.map_singleton,
    name_append_blanks hblanks]

/-- A list that is not all white space gives one name for each part between its commas. -/
theorem names_eq (text : Text) :
    names text = if Text.isBlankText text then [] else (text.splitOn ',').map name := by
  have hempty : (Text.trim text).isEmpty = Text.isBlankText text := by
    rw [Bool.eq_iff_iff, List.isEmpty_iff, Text.trim_eq_nil_iff]
  obtain ⟨before, after, htext, hbefore, hafter⟩ := Text.exists_trim text
  have hmap : ((Text.trim text).splitOn ',').map name = (text.splitOn ',').map name := by
    conv_rhs => rw [htext, map_name_splitOn_append_blanks hafter,
      map_name_splitOn_blanks_append hbefore]
  rw [names, hempty, hmap]

/-- Parts that are joined by commas give their names back. -/
theorem names_intercalate {parts : List Text} (hcomma : ∀ part ∈ parts, ',' ∉ part)
    (hblank : ∀ part ∈ parts, Text.isBlankText part = false) :
    names (List.intercalate [','] parts) = parts.map name := by
  cases parts with
  | nil => rfl
  | cons first others =>
      have hfirst : Text.isBlankText first = false := hblank first List.mem_cons_self
      have hlist : Text.isBlankText (List.intercalate [','] (first :: others)) = false := by
        cases others with
        | nil => simpa using hfirst
        | cons second others => simp [List.intercalate_cons_cons, hfirst]
      rw [names_eq, hlist, if_neg Bool.false_ne_true,
        List.splitOn_intercalate ',' hcomma (List.cons_ne_nil _ _)]

/-- Parts that are joined by commas and blanks give their names back. -/
theorem names_joined {parts : List Text} (hcomma : ∀ part ∈ parts, ',' ∉ part)
    (hblank : ∀ part ∈ parts, Text.isBlankText part = false) :
    names (List.intercalate ", " parts) = parts.map name := by
  cases parts with
  | nil => rfl
  | cons first others =>
      obtain ⟨hfirstComma, hcomma⟩ := List.forall_mem_cons.mp hcomma
      obtain ⟨hfirstBlank, hblank⟩ := List.forall_mem_cons.mp hblank
      -- the blank behind a comma belongs to the part that follows
      have hjoin : List.intercalate ", " (first :: others) =
          List.intercalate [','] (first :: others.map ([' '] ++ ·)) := by
        rw [Text.intercalate_cons, Text.intercalate_cons, List.flatMap_map]
        rfl
      rw [hjoin, names_intercalate, List.map_cons, List.map_map, List.map_cons]
      · refine congrArg _ (List.map_congr_left fun part _ => ?_)
        exact name_blanks_append (by decide) part
      · rw [List.forall_mem_cons, List.forall_mem_map]
        exact ⟨hfirstComma, fun part hpart => by simpa using hcomma part hpart⟩
      · rw [List.forall_mem_cons, List.forall_mem_map]
        refine ⟨hfirstBlank, fun part hpart => ?_⟩
        rw [Text.isBlankText_append, hblank part hpart, Bool.and_false]

/-- Names that are joined by commas and blanks are read back. -/
theorem names_joined_names {words : List Text} (hwords : ∀ word ∈ words, IsName word) :
    names (List.intercalate ", " words) = words := by
  have hname : ∀ word ∈ words, name word = word := fun word hmem => by
    have hfront : name (word ++ []) = word := name_front (hwords word hmem) (Or.inl rfl)
    rwa [List.append_nil] at hfront
  rw [names_joined (fun word hmem => (hwords word hmem).notMem (by decide))
    fun word hmem => (hwords word hmem).isBlankText]
  exact (List.map_congr_left hname).trans (List.map_id words)

theorem isName_of_mem_names {list word : Text} (hmem : word ∈ names list) : IsName word := by
  rw [names_eq] at hmem
  split at hmem
  next => simp at hmem
  next =>
    obtain ⟨part, -, rfl⟩ := List.mem_map.mp hmem
    exact isName_name part

end ServiceScaffold.Parameter
