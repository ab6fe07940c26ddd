import Mathlib.Data.List.DropRight
import Mathlib.Data.List.Forall2
import ServiceScaffold.Proofs.Service.Parameter

/-! # The name of a part

What the name of one part of a parameter list is, said of the text of the part alone: the first whole
word that a mark follows, or else the whole word that ends the part, or else the placeholder. A search
for any run of word characters, whole or not, comes to the same words, because what has to follow a
run cannot go on with a word character.
-/

namespace ServiceScaffold.Parameter

variable {asks others : Text → Prop} {text before word after blanks more : Text}

/-! ## Whole words -/

/-- The word stands in the text and cannot be made longer there. -/
structure WholeWord (text before word after : Text) : Prop where
  placed : text = before ++ (word ++ after)
  isName : IsName word
  starts : ∀ c ∈ before.getLast?, isWordChar c = false
  ends : ∀ c ∈ after.head?, isWordChar c = false

/-- The whole word that is followed by what is asked for, and no such word stands further to the
left. -/
structure FirstWord (asks : Text → Prop) (text before word after : Text) : Prop
    extends WholeWord text before word after where
  asked : asks after
  first : ∀ earlier other later, WholeWord text earlier other later → asks later →
    before.length ≤ earlier.length

namespace WholeWord

/-- A whole word is read between the words before it and those behind it. -/
theorem words_eq (hwhole : WholeWord text before word after) :
    words text = (words before).map (fun found => (found.1, found.2 ++ (word ++ after))) ++
      (word, after) :: words after := by
  rw [hwhole.placed, words_append (Or.inl hwhole.starts),
    words_name_append hwhole.isName hwhole.ends]

theorem length_eq (hwhole : WholeWord text before word after) :
    text.length = before.length + (word.length + after.length) := by
  rw [hwhole.placed, List.length_append, List.length_append]

/-- At one place stands one whole word. -/
theorem unique {earlier other later : Text} (hwhole : WholeWord text before word after)
    (hother : WholeWord text earlier other later) (hlength : before.length = earlier.length) :
    word = other := by
  have hsame := hwhole.placed.symm.trans hother.placed
  obtain ⟨-, hrest⟩ := List.append_inj hsame hlength
  rw [← hwhole.isName.takeWhile hwhole.ends, hrest, hother.isName.takeWhile hother.ends]

end WholeWord

theorem FirstWord.unique {earlier other later : Text} (hfirst : FirstWord asks text before word after)
    (hother : FirstWord asks text earlier other later) : word = other :=
  hfirst.toWholeWord.unique hother.toWholeWord <| Nat.le_antisymm
    (hfirst.first _ _ _ hother.toWholeWord hother.asked)
    (hother.first _ _ _ hfirst.toWholeWord hfirst.asked)

/-- Where a word starts the reader was outside of words. -/
theorem exists_before_of_mem_wordEnds {inWord : Bool} {tail : Text}
    (hmem : tail ∈ wordEnds inWord text) :
    ∃ before, text = before ++ tail ∧ endsInWord inWord before = false := by
  induction text generalizing inWord with
  | nil => cases hmem
  | cons c text ih =>
      have hlater {inside : Bool} (hinside : inside = isWordChar c)
          (htail : tail ∈ wordEnds inside text) :
          ∃ before, c :: text = before ++ tail ∧ endsInWord inWord before = false := by
        obtain ⟨before, rfl, hends⟩ := ih htail
        refine ⟨c :: before, rfl, ?_⟩
        rwa [hinside] at hends
      rw [wordEnds] at hmem
      split at hmem
      next hstart =>
        rw [Bool.and_eq_true, Bool.not_eq_true'] at hstart
        rcases List.mem_cons.mp hmem with rfl | hmem
        · exact ⟨[], rfl, hstart.2⟩
        · exact hlater hstart.1.symm hmem
      next => exact hlater rfl hmem

/-- The words that are read are whole words. -/
theorem exists_wholeWord_of_mem_words {found : Text × Text} (hmem : found ∈ words text) :
    ∃ before, WholeWord text before found.1 found.2 := by
  have hname := isName_of_mem_words hmem
  obtain ⟨tail, htail, rfl⟩ := List.mem_map.mp hmem
  obtain ⟨before, hplaced, hends⟩ := exists_before_of_mem_wordEnds htail
  refine ⟨before, ?_, hname, fun c hc => ?_, fun c hc => ?_⟩
  · rw [List.takeWhile_append_dropWhile, hplaced]
  · obtain ⟨front, rfl⟩ := List.getLast?_eq_some_iff.mp hc
    rwa [endsInWord, List.foldl_append] at hends
  · have hstop := List.head?_dropWhile_not isWordChar tail
    rw [Option.mem_def.mp hc] at hstop
    exact hstop

/-- The first of the words with a property is the first whole word that has it. -/
theorem exists_firstWord_of_find? {holds : Text → Bool}
    (hfind : ((words text).find? fun found => holds found.2) = some (word, after)) :
    ∃ before, FirstWord (fun after => holds after = true) text before word after := by
  obtain ⟨before, hwhole : WholeWord text before word after⟩ :=
    exists_wholeWord_of_mem_words (List.mem_of_find?_eq_some hfind)
  have hasked : holds after = true :=
    List.find?_some (p := fun found : Text × Text => holds found.2) hfind
  refine ⟨before, hwhole, hasked, fun earlier other later hother hlater => ?_⟩
  have hlength := hwhole.length_eq
  rw [hother.length_eq] at hlength
  rw [hother.words_eq, List.find?_append,
    List.find?_cons_of_pos (p := fun found : Text × Text => holds found.2) hlater] at hfind
  rcases Option.or_eq_some_iff.mp hfind with hfront | ⟨-, hsame⟩
  · -- found among the words before the other one
    obtain ⟨inner, hinner, hsame⟩ := List.mem_map.mp (List.mem_of_find?_eq_some hfront)
    obtain ⟨front, hfound⟩ := exists_wholeWord_of_mem_words hinner
    have hearlier := hfound.length_eq
    obtain ⟨rfl, rfl⟩ := Prod.mk.inj hsame
    simp only [List.length_append] at hlength
    omega
  · obtain ⟨rfl, rfl⟩ := Prod.mk.inj (Option.some.inj hsame)
    omega

theorem not_of_find?_eq_none {holds : Text → Bool}
    (hfind : ((words text).find? fun found => holds found.2) = none)
    (hwhole : WholeWord text before word after) : ¬ holds after = true := by
  refine List.find?_eq_none.mp hfind (word, after) ?_
  rw [hwhole.words_eq]
  simp

/-! ## The name -/

/-- White space follows, and then one of the marks. -/
def MarkFollows (after : Text) : Prop :=
  ∃ blanks mark rest, after = blanks ++ mark :: rest ∧ Text.isBlankText blanks = true ∧
    (mark = ':' ∨ mark = '=' ∨ mark = '?')

/-- Nothing but white space follows. -/
def EndFollows (after : Text) : Prop := Text.isBlankText after = true

theorem markFollows_iff : MarkFollows after ↔ marked after = true := by
  simp only [MarkFollows, marked_iff, isMark, Bool.or_eq_true, decide_eq_true_eq, or_assoc]

/-- The word is the name of the part. -/
inductive NameOf (part : Text) : Text → Prop
  | marked {before word after : Text} (hfirst : FirstWord MarkFollows part before word after) :
      NameOf part word
  | last {before word after : Text}
      (hunmarked : ∀ before word after, WholeWord part before word after → ¬ MarkFollows after)
      (hwhole : WholeWord part before word after) (hend : EndFollows after) : NameOf part word
  | placeholder
      (hunmarked : ∀ before word after, WholeWord part before word after → ¬ MarkFollows after)
      (hnone : ∀ before word after, WholeWord part before word after → ¬ EndFollows after) :
      NameOf part placeholderParameter

theorem FirstWord.congr (hsame : ∀ after, asks after ↔ others after)
    (hfirst : FirstWord asks text before word after) : FirstWord others text before word after :=
  ⟨hfirst.toWholeWord, (hsame _).mp hfirst.asked, fun earlier other later hother hlater =>
    hfirst.first earlier other later hother ((hsame _).mpr hlater)⟩

theorem nameOf_name (part : Text) : NameOf part (name part) := by
  rw [name]
  cases hmarked : (words part).find? fun word => Parameter.marked word.2 with
  | some found =>
      obtain ⟨before, hfirst⟩ := exists_firstWord_of_find? hmarked
      exact .marked (hfirst.congr fun after => markFollows_iff.symm)
  | none =>
      have hunmarked : ∀ before word after, WholeWord part before word after → ¬ MarkFollows after :=
        fun before word after hwhole hmark =>
          not_of_find?_eq_none hmarked hwhole (markFollows_iff.mp hmark)
      cases hlast : (words part).find? fun word => Text.isBlankText word.2 with
      | some found =>
          obtain ⟨before, hfirst⟩ := exists_firstWord_of_find? hlast
          exact .last hunmarked hfirst.toWholeWord hfirst.asked
      | none => exact .placeholder hunmarked fun _ _ _ hwhole => not_of_find?_eq_none hlast hwhole

/-- No word stands behind the one that ends a text. -/
theorem WholeWord.unique_last {earlier other later : Text} (hwhole : WholeWord text before word after)
    (hend : EndFollows after) (hother : WholeWord text earlier other later)
    (hotherEnd : EndFollows later) : word = other := by
  have hlast {before word after : Text} (hwhole : WholeWord text before word after)
      (hend : EndFollows after) : (words text).getLast? = some (word, after) := by
    rw [hwhole.words_eq, words_of_isBlankText hend, List.getLast?_concat]
  exact (Prod.mk.inj (Option.some.inj ((hlast hwhole hend).symm.trans (hlast hother hotherEnd)))).1

/-- A part has one name. -/
theorem NameOf.unique {other : Text} (hname : NameOf text word) (hother : NameOf text other) :
    word = other := by
  cases hname with
  | marked hfirst =>
      cases hother with
      | marked hsecond => exact hfirst.unique hsecond
      | last hunmarked => exact absurd hfirst.asked (hunmarked _ _ _ hfirst.toWholeWord)
      | placeholder hunmarked => exact absurd hfirst.asked (hunmarked _ _ _ hfirst.toWholeWord)
  | last hunmarked hwhole hend =>
      cases hother with
      | marked hsecond => exact absurd hsecond.asked (hunmarked _ _ _ hsecond.toWholeWord)
      | last _ hotherWhole hotherEnd => exact hwhole.unique_last hend hotherWhole hotherEnd
      | placeholder _ hnone => exact absurd hend (hnone _ _ _ hwhole)
  | placeholder hunmarked hnone =>
      cases hother with
      | marked hsecond => exact absurd hsecond.asked (hunmarked _ _ _ hsecond.toWholeWord)
      | last _ hwhole hend => exact absurd hend (hnone _ _ _ hwhole)
      | placeholder => rfl

theorem nameOf_iff : NameOf text word ↔ word = name text :=
  ⟨fun hname => hname.unique (nameOf_name text), fun heq => heq ▸ nameOf_name text⟩

/-! ## Searches -/

/-- A run of word characters, whole or not, stands in the text, and behind it what is asked for. -/
structure Match (asks : Text → Prop) (text before word after : Text) : Prop where
  placed : text = before ++ (word ++ after)
  isName : IsName word
  asked : asks after

/-- The match that a search from left to right comes to: none starts further to the left, and none
that starts there is longer. -/
structure FirstMatch (asks : Text → Prop) (text before word after : Text) : Prop
    extends Match asks text before word after where
  leftmost : ∀ earlier other later, Match asks text earlier other later →
    before.length ≤ earlier.length
  longest : ∀ other later, Match asks text before other later → other.length ≤ word.length

/-- A match is the end of a whole word, if what is asked for does not go on with a word. -/
theorem Match.exists_wholeWord (hstop : ∀ after, asks after → ∀ c ∈ after.head?, isWordChar c = false)
    (hmatch : Match asks text before word after) :
    ∃ front run, before = front ++ run ∧ WholeWord text front (run ++ word) after := by
  have hrun : ∀ c ∈ before.rtakeWhile isWordChar, isWordChar c = true := fun c hc =>
    List.mem_rtakeWhile_imp hc
  have hbefore : before.rdropWhile isWordChar ++ before.rtakeWhile isWordChar = before :=
    List.rdropWhile_append_rtakeWhile
  refine ⟨before.rdropWhile isWordChar, before.rtakeWhile isWordChar, hbefore.symm, ?_,
    ⟨by simp [hmatch.isName.ne_nil], ?_⟩, fun c hc => ?_, hstop after hmatch.asked⟩
  · rw [hmatch.placed, List.append_assoc, ← List.append_assoc (before.rdropWhile _), hbefore]
  · intro c hc
    rcases List.mem_append.mp hc with hc | hc
    · exact hrun c hc
    · exact hmatch.isName.word c hc
  · have hne : before.rdropWhile isWordChar ≠ [] := by
      intro hnil
      rw [hnil] at hc
      cases hc
    rw [List.getLast?_eq_some_getLast hne] at hc
    obtain rfl := Option.some.inj hc
    exact Bool.eq_false_iff.mpr (List.rdropWhile_last_not isWordChar before hne)

/-- A search for any run of word characters comes to the first whole word. -/
theorem firstMatch_iff (hstop : ∀ after, asks after → ∀ c ∈ after.head?, isWordChar c = false) :
    FirstMatch asks text before word after ↔ FirstWord asks text before word after := by
  constructor
  · intro hfirst
    obtain ⟨front, run, rfl, hwhole⟩ := hfirst.toMatch.exists_wholeWord hstop
    -- the whole word is a match too, so nothing of it stands before the one that was found
    have hleft := hfirst.leftmost front (run ++ word) after
      ⟨hwhole.placed, hwhole.isName, hfirst.asked⟩
    rw [List.length_append] at hleft
    obtain rfl : run = [] := List.eq_nil_of_length_eq_zero (by omega)
    rw [List.append_nil, List.nil_append] at *
    exact ⟨hwhole, hfirst.asked, fun earlier other later hother hlater =>
      hfirst.leftmost earlier other later ⟨hother.placed, hother.isName, hlater⟩⟩
  · intro hfirst
    refine ⟨⟨hfirst.placed, hfirst.isName, hfirst.asked⟩, fun earlier other later hmatch => ?_,
      fun other later hmatch => ?_⟩
    · obtain ⟨front, run, rfl, hwhole⟩ := hmatch.exists_wholeWord hstop
      have hleft := hfirst.first _ _ _ hwhole hmatch.asked
      rw [List.length_append]
      omega
    · have hrest := List.append_cancel_left (hfirst.placed.symm.trans hmatch.placed)
      have hsame : word = other := by
        rw [← hfirst.isName.takeWhile hfirst.ends, hrest,
          hmatch.isName.takeWhile (hstop later hmatch.asked)]
      rw [hsame]

theorem MarkFollows.stops (hmark : MarkFollows after) : ∀ c ∈ after.head?, isWordChar c = false := by
  obtain ⟨blanks, mark, rest, rfl, hblanks, hmark⟩ := hmark
  intro c hc
  cases blanks with
  | nil =>
      obtain rfl : mark = c := by simpa using hc
      rcases hmark with rfl | rfl | rfl <;> decide
  | cons blank blanks =>
      obtain rfl : blank = c := by simpa using hc
      exact isWordChar_of_mem_blanks hblanks _ List.mem_cons_self

theorem EndFollows.stops (hend : EndFollows after) : ∀ c ∈ after.head?, isWordChar c = false :=
  fun c hc => isWordChar_of_mem_blanks hend c (List.mem_of_mem_head? hc)

/-! ## The names of a list -/

/-- A parameter list of white space has no names, and any other has one name for each part between
commas, in their order. A part has exactly one name, which is a word and does not depend on the white
space around the part; to look for whole words is the same as to search for any run of word
characters. Names that are joined by commas are read back. -/
theorem names_exact :
    (∀ list, Text.isBlankText list = true → names list = []) ∧
      (∀ list, Text.isBlankText list = false → List.Forall₂ NameOf (list.splitOn ',') (names list)) ∧
      (∀ part, ∃ word, NameOf part word ∧ IsName word ∧ ∀ other, NameOf part other → other = word) ∧
      (∀ blanks part more, Text.isBlankText blanks = true → Text.isBlankText more = true →
        ∀ word, NameOf (blanks ++ (part ++ more)) word ↔ NameOf part word) ∧
      (∀ part before word after,
        (FirstMatch MarkFollows part before word after ↔ FirstWord MarkFollows part before word after) ∧
          (FirstMatch EndFollows part before word after ↔ FirstWord EndFollows part before word after)) ∧
      (∀ list, ∀ word ∈ names list, IsName word) ∧
      ∀ words, (∀ word ∈ words, IsName word) → names (List.intercalate ", " words) = words := by
  refine ⟨fun list hblank => ?_, fun list hblank => ?_, fun part => ?_,
    fun blanks part more hblanks hmore word => ?_, fun part before word after => ?_,
    fun list word => isName_of_mem_names, fun words hwords => ?_⟩
  · rw [names_eq, if_pos hblank]
  · rw [names_eq, hblank, if_neg Bool.false_ne_true]
    exact List.forall₂_map_right_iff.mpr (List.forall₂_same.mpr fun part _ => nameOf_name part)
  · exact ⟨name part, nameOf_name part, isName_name part, fun other => nameOf_iff.mp⟩
  · rw [nameOf_iff, nameOf_iff, name_blanks_append hblanks, name_append_blanks hmore]
  · exact ⟨firstMatch_iff fun _ => MarkFollows.stops, firstMatch_iff fun _ => EndFollows.stops⟩
  · exact names_joined_names hwords

/-- The comma of a type starts a new part, and a part without a mark is named by its last word. -/
example : names "public lookup : Map<string, number>, ...rest , {}" =
    ["lookup", "param", "rest", "param"] := by
  decide

end ServiceScaffold.Parameter
