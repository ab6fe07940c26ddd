import ServiceScaffold.Json.Printer
import ServiceScaffold.Json.Reader

/-! # Reading JSON that was written

A document without numbers, and not nested too deep, is read as the value that it was written from.
Every character of a text is written in a form of its own, so texts come back whatever they hold.
-/

namespace ServiceScaffold

/-- Behind the digits of a code nothing is looked at. -/
theorem Text.hexNumeral?_append (digits : Text) (value : Nat) (rest : Text) :
    hexNumeral? digits.length value (digits ++ rest) = hexNumeral? digits.length value digits := by
  induction digits generalizing value with
  | nil => rfl
  | cons digit digits ih =>
      simp only [List.length_cons, List.cons_append, hexNumeral?]
      cases hexValue? digit with
      | none => rfl
      | some found => exact ih _

namespace Json

variable {depth fuel level closing : Nat} {value : Json} {items : List Json} {fields : List (Text × Json)}
variable {input rest : Text}

/-! ## Texts -/

/-- The digits of a code. -/
def codeDigits (code : Nat) : Text :=
  List.replicate (4 - (Nat.toDigits 16 code).length) '0' ++ Nat.toDigits 16 code

theorem controlEscape_eq (c : Char) : controlEscape c = '\\' :: 'u' :: codeDigits c.toNat := rfl

theorem hexNumeral?_codeDigits : ∀ code < 0x20,
    (codeDigits code).length = 4 ∧ Text.hexNumeral? 4 0 (codeDigits code) = some code := by
  decide

/-- A control character is read back from its code. -/
theorem readCode_codeDigits {c : Char} (hc : c.toNat < 0x20) (rest : Text) :
    readCode (codeDigits c.toNat ++ rest) = some (c, rest) := by
  obtain ⟨hlength, hcode⟩ := hexNumeral?_codeDigits c.toNat hc
  have hunit : readUnit (codeDigits c.toNat ++ rest) = some (c.toNat, rest) := by
    have happend := Text.hexNumeral?_append (codeDigits c.toNat) 0 rest
    rw [hlength] at happend
    rw [readUnit, happend, hcode, ← hlength, List.drop_left]
    rfl
  have hlow : ¬ 0xd800 ≤ c.toNat := by omega
  have hhigh : ¬ 0xdc00 ≤ c.toNat := by omega
  simp only [readCode, hunit, Option.bind_eq_bind, Option.bind_some, hlow, hhigh, decide_false,
    Bool.false_and, Bool.false_eq_true, if_false, Char.ofNat_toNat]

/-- The characters that are written as a backslash and a letter. -/
def lettered : List Char := ['"', '\\', '\x08', '\t', '\n', '\x0c', '\r']

theorem writtenChar_of_notMem {c : Char} (hc : c ∉ lettered) :
    writtenChar c = if c.toNat < 0x20 then controlEscape c else [c] := by
  simp only [lettered, List.mem_cons, List.not_mem_nil, or_false, not_or] at hc
  simp only [writtenChar, hc, if_false]

/-- One character is written so that it is read back before what follows it. -/
theorem readChars_writtenChar (fuel : Nat) (c : Char) (rest : Text) :
    readChars (fuel + 1) (writtenChar c ++ rest) =
      (readChars fuel rest).map fun read => (c :: read.1, read.2) := by
  have hmap : ((readChars fuel rest).bind fun read => some (c :: read.1, read.2)) =
      (readChars fuel rest).map fun read => (c :: read.1, read.2) := by
    cases readChars fuel rest <;> rfl
  by_cases hc : c ∈ lettered
  · simp only [lettered, List.mem_cons, List.not_mem_nil, or_false] at hc
    rcases hc with rfl | rfl | rfl | rfl | rfl | rfl | rfl
    all_goals exact hmap
  rw [writtenChar_of_notMem hc]
  split
  next hcontrol =>
    rw [controlEscape_eq, List.cons_append, List.cons_append, readChars, readCode_codeDigits hcontrol]
    exact hmap
  next hcontrol =>
    -- neither a quote nor a backslash, so it stands for itself
    simp only [lettered, List.mem_cons, List.not_mem_nil, or_false, not_or] at hc
    rw [List.singleton_append, readChars]
    · simp only [hcontrol, hc, decide_false, Bool.or_self, Bool.false_eq_true, if_false]
      exact hmap
    all_goals simp_all

theorem readChars_written (text rest : Text) (hfuel : text.length < fuel) :
    readChars fuel (text.flatMap writtenChar ++ '"' :: rest) = some (text, rest) := by
  induction text generalizing fuel with
  | nil =>
      obtain ⟨fuel, rfl⟩ := Nat.exists_eq_succ_of_ne_zero (Nat.ne_of_gt hfuel)
      rfl
  | cons c text ih =>
      obtain ⟨fuel, rfl⟩ := Nat.exists_eq_succ_of_ne_zero (Nat.ne_zero_of_lt hfuel)
      rw [List.flatMap_cons, List.append_assoc, readChars_writtenChar,
        ih (Nat.lt_of_succ_lt_succ hfuel)]
      rfl

theorem one_le_length_writtenChar (c : Char) : 1 ≤ (writtenChar c).length := by
  unfold writtenChar
  repeat' split
  all_goals simp [controlEscape]

theorem length_le_flatMap_writtenChar (text : Text) :
    text.length ≤ (text.flatMap writtenChar).length := by
  induction text with
  | nil => exact Nat.le_refl 0
  | cons c text ih =>
      have hc := one_le_length_writtenChar c
      rw [List.flatMap_cons, List.length_append, List.length_cons]
      omega

/-- A text is read back up to its closing quote. -/
theorem readText_writtenText (text rest : Text) :
    readText (text.flatMap writtenChar ++ '"' :: rest) = some (text, rest) := by
  refine readChars_written text rest ?_
  have hlength := length_le_flatMap_writtenChar text
  rw [List.length_append, List.length_cons]
  omega

/-! ## Blanks -/

theorem skipSpace_cons {c : Char} (hc : isSpace c = false) (rest : Text) :
    skipSpace (c :: rest) = c :: rest := by
  rw [skipSpace, List.dropWhile_cons_of_neg (by simp [hc])]

theorem skipSpace_lineBreak (level : Nat) (rest : Text) :
    skipSpace (lineBreak level ++ rest) = skipSpace rest := by
  have hblank : ∀ c ∈ lineBreak level, isSpace c = true := by
    intro c hc
    rcases List.mem_cons.mp hc with rfl | hc
    · rfl
    · rw [List.eq_of_mem_replicate hc]
      rfl
  exact List.dropWhile_append_of_pos hblank

theorem writtenText_append (text rest : Text) :
    writtenText text ++ rest = '"' :: (text.flatMap writtenChar ++ '"' :: rest) := by
  simp [writtenText]

theorem skipSpace_writtenText (text rest : Text) :
    skipSpace (writtenText text ++ rest) = writtenText text ++ rest := skipSpace_cons rfl _

/-! ## Values -/

/-- The value is read where it was written at any level, and the reading ends behind it. It starts with
a character by which it is known. -/
structure ReadsBack (depth : Nat) (value : Json) : Prop where
  head : ∀ level, ∃ c tail, written level value = c :: tail ∧ isSpace c = false ∧ c ≠ ']'
  read : ∀ {level fuel input rest}, skipSpace input = written level value ++ rest →
    2 * (written level value).length ≤ fuel + 1 → readValue (fuel + 1) depth input = some (value, rest)

theorem ReadsBack.skipSpace_eq (hvalue : ReadsBack depth value) (level : Nat) (rest : Text) :
    skipSpace (written level value ++ rest) = written level value ++ rest := by
  obtain ⟨c, tail, hwritten, hc, -⟩ := hvalue.head level
  rw [hwritten, List.cons_append, skipSpace_cons hc]

theorem ReadsBack.readValue_eq (hvalue : ReadsBack depth value)
    (hinput : skipSpace input = written level value ++ rest)
    (hfuel : 2 * (written level value).length ≤ fuel) :
    readValue fuel depth input = some (value, rest) := by
  obtain ⟨c, tail, hwritten, -⟩ := hvalue.head level
  cases fuel with
  | zero => simp [hwritten] at hfuel
  | succ fuel => exact hvalue.read hinput hfuel

theorem readsBack_null (depth : Nat) : ReadsBack depth .null where
  head := fun level => ⟨'n', "ull".toList, rfl, rfl, by decide⟩
  read := by
    intro level fuel input rest hinput hfuel
    rw [readValue, hinput]
    rfl

theorem readsBack_bool (depth : Nat) (value : Bool) : ReadsBack depth (.bool value) where
  head := by
    intro level
    cases value with
    | false => exact ⟨'f', "alse".toList, rfl, rfl, by decide⟩
    | true => exact ⟨'t', "rue".toList, rfl, rfl, by decide⟩
  read := by
    intro level fuel input rest hinput hfuel
    rw [readValue, hinput]
    cases value with
    | false => rfl
    | true => rfl

theorem readsBack_text (depth : Nat) (text : Text) : ReadsBack depth (.text text) where
  head := fun level => ⟨'"', text.flatMap writtenChar ++ ['"'], rfl, rfl, by decide⟩
  read := by
    intro level fuel input rest hinput hfuel
    rw [written, writtenText_append] at hinput
    simp only [readValue, hinput, readText_writtenText, Option.map_some]

/-! ## Arrays -/

/-- Items are read up to the bracket behind them. -/
theorem readItems_written {first : Json} (hitems : ∀ item ∈ first :: items, ReadsBack depth item)
    (hinput : skipSpace input = written level first ++ (writtenItems level items
      ++ (lineBreak closing ++ ']' :: rest)))
    (hfuel : 2 * ((written level first).length + (writtenItems level items).length) < fuel) :
    readItems fuel depth input = some (first :: items, rest) := by
  induction items generalizing first fuel input with
  | nil =>
      obtain ⟨fuel, rfl⟩ := Nat.exists_eq_succ_of_ne_zero (Nat.ne_zero_of_lt hfuel)
      have hread : readValue fuel depth input = some (first, _) :=
        (hitems first List.mem_cons_self).readValue_eq hinput (by omega)
      simp only [readItems, hread, Option.bind_eq_bind, Option.bind_some, writtenItems,
        List.nil_append, skipSpace_lineBreak, skipSpace_cons (c := ']') rfl]
  | cons second items ih =>
      obtain ⟨fuel, rfl⟩ := Nat.exists_eq_succ_of_ne_zero (Nat.ne_zero_of_lt hfuel)
      obtain ⟨hfirst, hothers⟩ := List.forall_mem_cons.mp hitems
      have hmore : writtenItems level (second :: items) =
          ',' :: (lineBreak level ++ (written level second ++ writtenItems level items)) := by
        simp [writtenItems]
      rw [hmore] at hinput hfuel
      simp only [List.length_cons, List.length_append] at hfuel
      have hread : readValue fuel depth input = some (first, _) := hfirst.readValue_eq hinput (by omega)
      -- what follows the comma starts with the next item, behind its indentation
      have hsecond : readItems fuel depth (lineBreak level ++ (written level second
          ++ writtenItems level items) ++ (lineBreak closing ++ ']' :: rest)) =
          some (second :: items, rest) := by
        refine ih hothers ?_ (by omega)
        rw [List.append_assoc, skipSpace_lineBreak, List.append_assoc,
          (hothers second List.mem_cons_self).skipSpace_eq]
      simp only [readItems, hread, Option.bind_eq_bind, Option.bind_some, List.cons_append,
        skipSpace_cons (c := ',') rfl, hsecond]

/-- Behind its bracket an array goes on with its items unless it is closed at once. -/
theorem readValue_open {c : Char} {inner tail : Text} (hinput : skipSpace input = '[' :: inner)
    (hinner : skipSpace inner = c :: tail) (hc : c ≠ ']') :
    readValue (fuel + 1) (depth + 1) input =
      (readItems fuel depth (c :: tail)).map fun read => (.array read.1, read.2) := by
  simp only [readValue, hinput, Nat.add_one_ne_zero, if_false, Nat.add_sub_cancel, hinner]
  split
  next heq => exact absurd (List.cons.inj heq).1 hc
  next => rfl

theorem readsBack_array (hitems : ∀ item ∈ items, ReadsBack depth item) :
    ReadsBack (depth + 1) (.array items) where
  head := by
    intro level
    cases items with
    | nil => exact ⟨'[', "]".toList, rfl, rfl, by decide⟩
    | cons => exact ⟨'[', _, rfl, rfl, by decide⟩
  read := by
    intro level fuel input rest hinput hfuel
    cases items with
    | nil =>
        rw [readValue, hinput]
        rfl
    | cons first items =>
        have hwritten : written level (.array (first :: items)) = '[' :: (lineBreak (level + 1)
            ++ (written (level + 1) first ++ (writtenItems (level + 1) items
              ++ (lineBreak level ++ [']'])))) := by
          simp [written]
        rw [hwritten] at hinput hfuel
        simp only [List.length_cons, List.length_append, List.length_nil] at hfuel
        simp only [List.cons_append, List.append_assoc, List.nil_append] at hinput
        have hfirst := hitems first List.mem_cons_self
        have hread : readItems fuel depth (written (level + 1) first
            ++ (writtenItems (level + 1) items ++ (lineBreak level ++ ']' :: rest))) =
            some (first :: items, rest) :=
          readItems_written hitems (hfirst.skipSpace_eq _ _) (by omega)
        obtain ⟨c, tail, hhead, hspace, hc⟩ := hfirst.head (level + 1)
        rw [hhead] at hinput hread
        have hinner : skipSpace (lineBreak (level + 1) ++ (c :: tail ++ (writtenItems (level + 1) items
            ++ (lineBreak level ++ ']' :: rest)))) = c :: (tail ++ (writtenItems (level + 1) items
              ++ (lineBreak level ++ ']' :: rest))) := by
          rw [skipSpace_lineBreak, List.cons_append, skipSpace_cons hspace]
        rw [readValue_open hinput hinner hc, ← List.cons_append, hread, Option.map_some]

/-! ## Objects -/

/-- A field is read, and what stands behind it tells whether it was the last one. -/
theorem readFields_field (hvalue : ReadsBack depth value) {name : Text}
    (hinput : skipSpace input = writtenText name ++ (": ".toList ++ (written level value ++ rest)))
    (hfuel : 2 * (written level value).length ≤ fuel) :
    (∀ after, skipSpace rest = '\x7d' :: after →
      readFields (fuel + 1) depth input = some ([(name, value)], after)) ∧
    ∀ after fields last, skipSpace rest = ',' :: after →
      readFields fuel depth after = some (fields, last) →
      readFields (fuel + 1) depth input = some ((name, value) :: fields, last) := by
  have hblank : skipSpace (' ' :: (written level value ++ rest)) = written level value ++ rest := by
    rw [skipSpace, List.dropWhile_cons_of_pos rfl]
    exact hvalue.skipSpace_eq level rest
  have hread := hvalue.readValue_eq hblank hfuel
  rw [writtenText_append] at hinput
  have hcolon : skipSpace (": ".toList ++ (written level value ++ rest)) =
      ':' :: ' ' :: (written level value ++ rest) := skipSpace_cons rfl _
  constructor
  · intro after hrest
    simp only [readFields, hinput, readText_writtenText, Option.bind_eq_bind, Option.bind_some, hcolon,
      hread, hrest]
  · intro after fields last hrest hfields
    simp only [readFields, hinput, readText_writtenText, Option.bind_eq_bind, Option.bind_some, hcolon,
      hread, hrest, hfields]

/-- Fields are read up to the brace behind them. -/
theorem readFields_written {name : Text}
    (hfields : ∀ field ∈ (name, value) :: fields, ReadsBack depth field.2)
    (hinput : skipSpace input = writtenText name ++ (": ".toList ++ (written level value
      ++ (writtenFields level fields ++ (lineBreak closing ++ '\x7d' :: rest)))))
    (hfuel : 2 * ((written level value).length + (writtenFields level fields).length) < fuel) :
    readFields fuel depth input = some ((name, value) :: fields, rest) := by
  induction fields generalizing name value fuel input with
  | nil =>
      obtain ⟨fuel, rfl⟩ := Nat.exists_eq_succ_of_ne_zero (Nat.ne_zero_of_lt hfuel)
      have hvalue : ReadsBack depth value := hfields _ List.mem_cons_self
      refine (readFields_field hvalue hinput (by omega)).1 rest ?_
      rw [writtenFields, List.nil_append, skipSpace_lineBreak, skipSpace_cons rfl]
  | cons second fields ih =>
      obtain ⟨other, next⟩ := second
      obtain ⟨fuel, rfl⟩ := Nat.exists_eq_succ_of_ne_zero (Nat.ne_zero_of_lt hfuel)
      obtain ⟨hfirst, hothers⟩ := List.forall_mem_cons.mp hfields
      have hvalue : ReadsBack depth value := hfirst
      have hmore : writtenFields level ((other, next) :: fields) = ',' :: (lineBreak level
          ++ (writtenText other ++ (": ".toList ++ (written level next
            ++ writtenFields level fields)))) := by
        simp [writtenFields]
      rw [hmore] at hinput hfuel
      simp only [List.length_cons, List.length_append] at hfuel
      -- what follows the comma starts with the next field, behind its indentation
      have hsecond : readFields fuel depth (lineBreak level ++ (writtenText other ++ (": ".toList
          ++ (written level next ++ writtenFields level fields)))
            ++ (lineBreak closing ++ '\x7d' :: rest)) = some ((other, next) :: fields, rest) := by
        refine ih hothers ?_ (by omega)
        simp only [List.append_assoc, skipSpace_lineBreak, skipSpace_writtenText]
      exact (readFields_field hvalue hinput (by omega)).2 _ _ _ (skipSpace_cons rfl _) hsecond

theorem readsBack_object (hfields : ∀ field ∈ fields, ReadsBack depth field.2) :
    ReadsBack (depth + 1) (.object fields) where
  head := by
    intro level
    cases fields with
    | nil => exact ⟨'\x7b', "\x7d".toList, rfl, rfl, by decide⟩
    | cons => exact ⟨'\x7b', _, rfl, rfl, by decide⟩
  read := by
    intro level fuel input rest hinput hfuel
    cases fields with
    | nil =>
        rw [readValue, hinput]
        rfl
    | cons first fields =>
        obtain ⟨name, value⟩ := first
        have hwritten : written level (.object ((name, value) :: fields)) = '\x7b' ::
            (lineBreak (level + 1) ++ (writtenText name ++ (": ".toList ++ (written (level + 1) value
              ++ (writtenFields (level + 1) fields ++ (lineBreak level ++ ['\x7d'])))))) := by
          simp [written]
        rw [hwritten] at hinput hfuel
        simp only [List.length_cons, List.length_append, List.length_nil] at hfuel
        simp only [List.cons_append, List.append_assoc, List.nil_append] at hinput
        have hread : readFields fuel depth (writtenText name ++ (": ".toList ++ (written (level + 1) value
            ++ (writtenFields (level + 1) fields ++ (lineBreak level ++ '\x7d' :: rest))))) =
            some ((name, value) :: fields, rest) :=
          readFields_written hfields (skipSpace_writtenText name _) (by omega)
        -- the quote of a name is not the brace of an object that is closed at once
        rw [writtenText_append] at hinput hread
        simp only [readValue, hinput, Nat.add_one_ne_zero, if_false, Nat.add_sub_cancel,
          skipSpace_lineBreak, skipSpace_cons (c := '"') rfl]
        exact congrArg (Option.map _) hread

/-! ## Documents -/

/-- The value has no number, and arrays and objects in it are nested at most so deep. -/
inductive Shallow : Nat → Json → Prop
  | null (depth : Nat) : Shallow depth .null
  | bool (depth : Nat) (value : Bool) : Shallow depth (.bool value)
  | text (depth : Nat) (value : Text) : Shallow depth (.text value)
  | array {depth : Nat} {items : List Json} (hitems : ∀ item ∈ items, Shallow depth item) :
      Shallow (depth + 1) (.array items)
  | object {depth : Nat} {fields : List (Text × Json)}
      (hfields : ∀ field ∈ fields, Shallow depth field.2) : Shallow (depth + 1) (.object fields)

theorem Shallow.readsBack (hvalue : Shallow depth value) : ReadsBack depth value := by
  induction hvalue with
  | null depth => exact readsBack_null depth
  | bool depth value => exact readsBack_bool depth value
  | text depth value => exact readsBack_text depth value
  | array _ ih => exact readsBack_array ih
  | object _ ih => exact readsBack_object ih

/-- A value is read back, whatever white space stands behind it. -/
theorem Shallow.read?_written (hvalue : Shallow deepest value) (hrest : skipSpace rest = []) :
    read? (written 0 value ++ rest) = some value := by
  have hback := hvalue.readsBack
  have hread : readValue (2 * (written 0 value ++ rest).length + 2) deepest
      (written 0 value ++ rest) = some (value, rest) := by
    refine hback.readValue_eq (hback.skipSpace_eq 0 rest) ?_
    rw [List.length_append]
    omega
  rw [read?, hread]
  simp only [hrest, List.isEmpty_nil, if_true]

theorem Shallow.read?_document (hvalue : Shallow deepest value) : read? (document value) = some value :=
  hvalue.read?_written rfl

/-! ## Fields by name -/

theorem mem_insertField {name : Text} {field : Text × Json}
    (hfield : field ∈ insertField name value fields) : field = (name, value) ∨ field ∈ fields := by
  induction fields with
  | nil => exact Or.inl (List.mem_singleton.mp hfield)
  | cons first fields ih =>
      rw [insertField] at hfield
      split at hfield
      · -- the field of the same name is replaced
        exact (List.mem_cons.mp hfield).imp_right (List.mem_cons_of_mem _)
      split at hfield
      · rcases List.mem_cons.mp hfield with rfl | hfield
        · exact Or.inr List.mem_cons_self
        · exact (ih hfield).imp_right (List.mem_cons_of_mem _)
      · exact List.mem_cons.mp hfield

theorem mem_of_mem_ofFields {sorted : List (Text × Json)} {field : Text × Json}
    (hfield : field ∈ fields.foldl (fun sorted field => insertField field.1 field.2 sorted) sorted) :
    field ∈ sorted ∨ field ∈ fields := by
  induction fields generalizing sorted with
  | nil => exact Or.inl hfield
  | cons first fields ih =>
      rcases ih hfield with hsorted | hfield
      · exact (mem_insertField hsorted).elim (fun heq => Or.inr (heq ▸ List.mem_cons_self)) Or.inl
      · exact Or.inr (List.mem_cons_of_mem _ hfield)

theorem shallow_ofFields (hfields : ∀ field ∈ fields, Shallow depth field.2) :
    Shallow (depth + 1) (ofFields fields) :=
  .object fun field hfield =>
    hfields field ((mem_of_mem_ofFields hfield).resolve_left List.not_mem_nil)

end Json

end ServiceScaffold
