import ServiceScaffold.Proofs.Text.Run
import ServiceScaffold.Service.Extraction

/-! # Names

The names that a source can have are non-empty runs of word characters. No word character is white
space, a mark after a parameter's name, or one of the characters that stand around names.
-/

namespace ServiceScaffold

/-- A name is a non-empty run of word characters. -/
structure IsName (name : Text) : Prop where
  ne_nil : name ≠ []
  word : ∀ c ∈ name, isWordChar c = true

/-- Word characters are the ASCII digits, the ASCII letters and the underscore. -/
theorem isWordChar_iff {c : Char} : isWordChar c = true ↔
    (48 ≤ c.toNat ∧ c.toNat ≤ 57) ∨ (65 ≤ c.toNat ∧ c.toNat ≤ 90) ∨
      (97 ≤ c.toNat ∧ c.toNat ≤ 122) ∨ c.toNat = 95 := by
  have hunderscore : c = '_' ↔ c.toNat = 95 := Char.toNat_inj.symm
  have hone : c.toNat = c.val.toNat := rfl
  unfold isWordChar Char.isAlphanum Char.isAlpha Char.isUpper Char.isLower Char.isDigit
  simp only [Bool.or_eq_true, Bool.and_eq_true, decide_eq_true_eq, UInt32.le_iff_toNat_le,
    ge_iff_le, hunderscore, hone]
  change (((65 ≤ _ ∧ _ ≤ 90) ∨ (97 ≤ _ ∧ _ ≤ 122)) ∨ (48 ≤ _ ∧ _ ≤ 57)) ∨ _ ↔ _
  omega

theorem isBlank_of_isWordChar {c : Char} (hword : isWordChar c = true) :
    Text.isBlank c = false := by
  rw [isWordChar_iff] at hword
  simp only [Text.isBlank, Bool.or_eq_false_iff, Bool.and_eq_false_iff, decide_eq_false_iff_not]
  omega

theorem isWordChar_of_isBlank {c : Char} (hblank : Text.isBlank c = true) :
    isWordChar c = false := by
  by_contra hword
  simp [isBlank_of_isWordChar (Bool.of_not_eq_false hword)] at hblank

theorem isWordChar_of_isMark {c : Char} (hmark : Parameter.isMark c = true) :
    isWordChar c = false := by
  simp only [Parameter.isMark, Bool.or_eq_true, decide_eq_true_eq] at hmark
  rcases hmark with (rfl | rfl) | rfl <;> decide

namespace IsName

variable {name rest text : Text}

theorem takeWhile (hname : IsName name) (hrest : ∀ c ∈ rest.head?, isWordChar c = false) :
    (name ++ rest).takeWhile isWordChar = name :=
  Text.takeWhile_run hname.word hrest

theorem dropWhile (hname : IsName name) (hrest : ∀ c ∈ rest.head?, isWordChar c = false) :
    (name ++ rest).dropWhile isWordChar = rest :=
  Text.dropWhile_run hname.word hrest

theorem isEmpty (hname : IsName name) : name.isEmpty = false := by
  simpa using hname.ne_nil

theorem of_takeWhile (hsome : text.takeWhile isWordChar ≠ []) :
    IsName (text.takeWhile isWordChar) :=
  ⟨hsome, fun _ hc => List.mem_takeWhile_imp hc⟩

theorem notMem (hname : IsName name) {c : Char} (hc : isWordChar c = false) : c ∉ name := by
  intro hmem
  simp [hname.word c hmem] at hc

theorem isBlankText (hname : IsName name) : Text.isBlankText name = false := by
  obtain ⟨c, rest, rfl⟩ := List.exists_cons_of_ne_nil hname.ne_nil
  simp [Text.isBlankText, isBlank_of_isWordChar (hname.word c List.mem_cons_self)]

theorem exists_cons (hname : IsName name) :
    ∃ c rest, name = c :: rest ∧ isWordChar c = true := by
  obtain ⟨c, rest, rfl⟩ := List.exists_cons_of_ne_nil hname.ne_nil
  exact ⟨c, rest, rfl, hname.word c List.mem_cons_self⟩

end IsName

end ServiceScaffold
