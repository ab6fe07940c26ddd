import ServiceScaffold.Proofs.Service.Word

/-! # Where occurrences stand

An occurrence is written in one way up to the white space before its bracket, and a text says at
each of its places whether one stands there, which one, and what follows it. The scanner takes the
earliest one, and goes on behind it.
-/

namespace ServiceScaffold.Occurrence

/-- How an occurrence is written: only the white space before its bracket is free. -/
def written (occurrence : Occurrence) (blanks : Text) : Text :=
  "public " ++ occurrence.name ++ blanks ++ "(" ++ occurrence.parameters ++ ")"

/-- The occurrence stands in the text, behind `gap` and in front of `rest`. -/
structure StandsIn (occurrence : Occurrence) (gap rest text : Text) : Prop where
  name : IsName occurrence.name
  parameters : ')' ∉ occurrence.parameters
  placed : ∃ blanks, Text.isBlankText blanks = true ∧
    text = gap ++ occurrence.written blanks ++ rest

/-- The choice from left to right: the earliest occurrence of the text, then the choice from what
follows it. It ends when no occurrence stands in what is left. -/
inductive Leftmost : Text → List Occurrence → Prop
  | done {text : Text} (hnone : ∀ occurrence gap rest, ¬ StandsIn occurrence gap rest text) :
      Leftmost text []
  | next {text gap rest : Text} {occurrence : Occurrence} {chosen : List Occurrence}
      (hstands : StandsIn occurrence gap rest text)
      (hearliest : ∀ other gap' rest', StandsIn other gap' rest' text → gap.length ≤ gap'.length)
      (hchosen : Leftmost rest chosen) : Leftmost text (occurrence :: chosen)

variable {occurrence : Occurrence} {gap rest text : Text}

theorem written_eq (occurrence : Occurrence) (blanks : Text) : occurrence.written blanks =
    opening ++ (occurrence.name ++ (blanks ++ '(' :: (occurrence.parameters ++ [')']))) := by
  unfold written
  simp only [List.append_assoc]
  rfl

/-! ## One place -/

/-- What is written is read, whatever follows. -/
theorem atStart?_written (hname : IsName occurrence.name) (hparameters : ')' ∉ occurrence.parameters)
    {blanks : Text} (hblanks : Text.isBlankText blanks = true) (rest : Text) :
    atStart? (occurrence.written blanks ++ rest) = some (occurrence, rest) := by
  have hopening : opening.isPrefixOf? (occurrence.written blanks ++ rest) =
      some (occurrence.name ++ (blanks ++ '(' :: (occurrence.parameters ++ ')' :: rest))) := by
    rw [List.isPrefixOf?_eq_some_iff_append_eq]
    simp [written_eq]
  have hafter : ∀ c ∈ (blanks ++ '(' :: (occurrence.parameters ++ ')' :: rest)).head?,
      isWordChar c = false := by
    intro c hc
    cases blanks with
    | nil =>
        obtain rfl : '(' = c := by simpa using hc
        decide
    | cons blank blanks =>
        obtain rfl : blank = c := by simpa using hc
        exact isWordChar_of_isBlank (Text.isBlankText_iff.mp hblanks _ List.mem_cons_self)
  have hbracket : (blanks ++ '(' :: (occurrence.parameters ++ ')' :: rest)).dropWhile Text.isBlank =
      '(' :: (occurrence.parameters ++ ')' :: rest) := by
    apply Text.dropWhile_run (Text.isBlankText_iff.mp hblanks)
    intro c hc
    obtain rfl : '(' = c := by simpa using hc
    decide
  have hsplit : Text.splitFirst? ')' (occurrence.parameters ++ ')' :: rest) =
      some (occurrence.parameters, rest) :=
    Text.splitFirst?_eq_some_iff.mpr ⟨hparameters, rfl⟩
  simp only [atStart?, hopening, Option.bind_eq_bind, Option.bind_some, hname.takeWhile hafter,
    hname.dropWhile hafter, hname.isEmpty, hbracket, hsplit, Option.map_some, Bool.false_eq_true,
    if_false]

/-- What is read off the front is written there. -/
theorem standsIn_of_atStart? (hread : atStart? text = some (occurrence, rest)) :
    occurrence.StandsIn [] rest text := by
  simp only [atStart?, Option.bind_eq_bind, Option.bind_eq_some_iff,
    List.isPrefixOf?_eq_some_iff_append_eq] at hread
  obtain ⟨after, rfl, hread⟩ := hread
  split at hread
  next => simp at hread
  next hname =>
    split at hread
    next inner hinner =>
      simp only [Option.map_eq_some_iff, Prod.mk.injEq, Prod.exists,
        Text.splitFirst?_eq_some_iff] at hread
      obtain ⟨parameters, tail, ⟨hparameters, rfl⟩, rfl, rfl⟩ := hread
      refine ⟨IsName.of_takeWhile (by simpa using hname), hparameters,
        (after.dropWhile isWordChar).takeWhile Text.isBlank, List.all_takeWhile, ?_⟩
      have hblanks := List.takeWhile_append_dropWhile (p := Text.isBlank)
        (l := after.dropWhile isWordChar)
      rw [hinner] at hblanks
      simp [written_eq, hblanks]
    next => simp at hread

theorem atStart?_eq_some_iff :
    atStart? text = some (occurrence, rest) ↔ occurrence.StandsIn [] rest text := by
  constructor
  · exact standsIn_of_atStart?
  · rintro ⟨hname, hparameters, blanks, hblanks, rfl⟩
    rw [List.nil_append]
    exact atStart?_written hname hparameters hblanks rest

namespace StandsIn

theorem length_lt (hstands : StandsIn occurrence gap rest text) : rest.length < text.length := by
  obtain ⟨-, -, blanks, -, rfl⟩ := hstands
  simp only [written_eq, List.length_append, List.length_cons]
  omega

/-- A text says what stands behind a gap and what follows it. -/
theorem atStart?_drop (hstands : StandsIn occurrence gap rest text) :
    atStart? (text.drop gap.length) = some (occurrence, rest) := by
  obtain ⟨hname, hparameters, blanks, hblanks, rfl⟩ := hstands
  rw [List.append_assoc, List.drop_left]
  exact atStart?_written hname hparameters hblanks rest

theorem unique {other : Occurrence} {gap' rest' : Text}
    (hstands : StandsIn occurrence gap rest text) (hother : StandsIn other gap' rest' text)
    (hlength : gap.length = gap'.length) : occurrence = other ∧ rest = rest' := by
  have hread := hstands.atStart?_drop
  rw [hlength, hother.atStart?_drop] at hread
  exact ⟨(congrArg Prod.fst (Option.some.inj hread)).symm,
    (congrArg Prod.snd (Option.some.inj hread)).symm⟩

theorem cons (hstands : StandsIn occurrence gap rest text) (c : Char) :
    StandsIn occurrence (c :: gap) rest (c :: text) := by
  obtain ⟨hname, hparameters, blanks, hblanks, rfl⟩ := hstands
  exact ⟨hname, hparameters, blanks, hblanks, rfl⟩

/-- What does not stand at the front stands behind the first character. -/
theorem exists_of_cons {c : Char} (hstands : StandsIn occurrence gap rest (c :: text))
    (hread : atStart? (c :: text) = none) :
    ∃ inner, gap = c :: inner ∧ StandsIn occurrence inner rest text := by
  obtain ⟨hname, hparameters, blanks, hblanks, heq⟩ := hstands
  cases gap with
  | nil =>
      rw [heq, List.nil_append, atStart?_written hname hparameters hblanks] at hread
      exact absurd hread (Option.some_ne_none _)
  | cons first inner =>
      obtain ⟨rfl, rfl⟩ := List.cons.inj heq
      exact ⟨inner, rfl, hname, hparameters, blanks, hblanks, rfl⟩

theorem append (hstands : StandsIn occurrence gap rest text) (more : Text) :
    StandsIn occurrence gap (rest ++ more) (text ++ more) := by
  obtain ⟨hname, hparameters, blanks, hblanks, rfl⟩ := hstands
  exact ⟨hname, hparameters, blanks, hblanks, List.append_assoc _ _ _⟩

theorem close_mem (hstands : StandsIn occurrence gap rest text) : ')' ∈ text := by
  obtain ⟨-, -, blanks, -, rfl⟩ := hstands
  simp [written_eq]

end StandsIn

/-! ## The scan -/

/-- More fuel than the text has characters changes nothing. -/
theorem scan_eq_scan (fuel other : Nat) (hfuel : text.length ≤ fuel) (hother : text.length ≤ other) :
    scan fuel text = scan other text := by
  induction fuel generalizing other text with
  | zero =>
      obtain rfl := List.length_eq_zero_iff.mp (Nat.le_zero.mp hfuel)
      cases other <;> rfl
  | succ fuel ih =>
      cases text with
      | nil => cases other <;> rfl
      | cons c rest =>
          obtain ⟨other, rfl⟩ := Nat.exists_eq_succ_of_ne_zero (n := other) (by
            intro hzero
            simp [hzero] at hother)
          rw [List.length_cons] at hfuel hother
          simp only [scan]
          split
          next found after hread =>
            have hlt := (standsIn_of_atStart? hread).length_lt
            rw [List.length_cons] at hlt
            rw [ih other (by omega) (by omega)]
          next => exact ih other (by omega) (by omega)

@[simp] theorem all_nil : all [] = [] := rfl

/-- A place where no occurrence stands is passed. -/
theorem all_skip {c : Char} (hread : atStart? (c :: rest) = none) :
    all (c :: rest) = all rest := by
  simp only [all, List.length_cons, scan, hread]

/-- An occurrence that stands at the front is taken, and the scan goes on behind it. -/
theorem all_take (hstands : StandsIn occurrence [] rest text) :
    all text = occurrence :: all rest := by
  have hlt := hstands.length_lt
  cases text with
  | nil => simp at hlt
  | cons c inner =>
      rw [List.length_cons] at hlt
      simp only [all, List.length_cons, scan, atStart?_eq_some_iff.mpr hstands]
      rw [scan_eq_scan inner.length rest.length (by omega) (Nat.le_refl _)]

/-- The induction along the scan: a text is empty, or no occurrence stands at its front and the
scan passes one character, or one stands there and the scan goes on behind it. -/
@[elab_as_elim] theorem scanInduction {motive : Text → Prop} (nil : motive [])
    (skip : ∀ c rest, atStart? (c :: rest) = none → motive rest → motive (c :: rest))
    (take : ∀ text occurrence rest, StandsIn occurrence [] rest text → motive rest → motive text)
    (text : Text) : motive text := by
  induction hlength : text.length using Nat.strongRecOn generalizing text with
  | _ length ih =>
      cases text with
      | nil => exact nil
      | cons c rest =>
          cases hread : atStart? (c :: rest) with
          | none =>
              refine skip c rest hread (ih rest.length ?_ rest rfl)
              rw [← hlength, List.length_cons]
              exact Nat.lt_succ_self _
          | some found =>
              have hstands := standsIn_of_atStart? hread
              exact take _ _ _ hstands (ih found.2.length (hlength ▸ hstands.length_lt) _ rfl)

/-! ## The choice -/

namespace Leftmost

theorem skip {c : Char} {chosen : List Occurrence} (hchosen : Leftmost rest chosen)
    (hread : atStart? (c :: rest) = none) : Leftmost (c :: rest) chosen := by
  cases hchosen with
  | done hnone =>
      refine .done fun other gap tail hstands => ?_
      obtain ⟨inner, -, hinner⟩ := hstands.exists_of_cons hread
      exact hnone _ _ _ hinner
  | next hstands hearliest hchosen =>
      refine .next (hstands.cons c) ?_ hchosen
      intro other gap' tail hother
      obtain ⟨inner, rfl, hinner⟩ := hother.exists_of_cons hread
      exact Nat.succ_le_succ (hearliest _ _ _ hinner)

/-- The choice from left to right is determined by the text. -/
theorem unique {first second : List Occurrence} (hfirst : Leftmost text first)
    (hsecond : Leftmost text second) : first = second := by
  induction hfirst generalizing second with
  | done hnone =>
      cases hsecond with
      | done _ => rfl
      | next hstands _ _ => exact absurd hstands (hnone _ _ _)
  | next hstands hearliest _ ih =>
      cases hsecond with
      | done hnone => exact absurd hstands (hnone _ _ _)
      | next hother hearliest' hchosen =>
          -- both choices start at one place, and the place says what stands there
          have hlength := Nat.le_antisymm (hearliest _ _ _ hother) (hearliest' _ _ _ hstands)
          obtain ⟨rfl, rfl⟩ := hstands.unique hother hlength
          rw [ih hchosen]

end Leftmost

/-- The scan makes the choice from left to right. -/
theorem leftmost_all (source : Text) : Leftmost source (all source) := by
  induction source using scanInduction with
  | nil =>
      refine .done fun occurrence gap rest hstands => ?_
      exact absurd hstands.close_mem List.not_mem_nil
  | skip c rest hread ih =>
      rw [all_skip hread]
      exact ih.skip hread
  | take text occurrence rest hstands ih =>
      rw [all_take hstands]
      exact .next hstands (fun _ _ _ _ => Nat.zero_le _) ih

theorem isName_of_mem_all {source : Text} (hmem : occurrence ∈ all source) :
    IsName occurrence.name := by
  induction source using scanInduction with
  | nil => simp at hmem
  | skip c rest hread ih => exact ih (all_skip hread ▸ hmem)
  | take text found rest hstands ih =>
      rw [all_take hstands] at hmem
      rcases List.mem_cons.mp hmem with rfl | hmem
      · exact hstands.name
      · exact ih hmem

/-! ## More text

Text that is added at the end can complete a declaration. Such a declaration runs to the end of the
shorter text, and as its parameter list is still open there, nothing can have been taken behind it.
-/

theorem all_eq_nil {source : Text} (hclose : ')' ∉ source) : all source = [] := by
  induction source using scanInduction with
  | nil => rfl
  | skip c rest hread ih =>
      rw [all_skip hread]
      exact ih fun hmem => hclose (List.mem_cons_of_mem _ hmem)
  | take text occurrence rest hstands ih => exact absurd hstands.close_mem hclose

/-- Only the last character of what is written closes a parameter list. -/
theorem exists_open_written (hname : IsName occurrence.name)
    (hparameters : ')' ∉ occurrence.parameters) {blanks : Text}
    (hblanks : Text.isBlankText blanks = true) :
    ∃ front, occurrence.written blanks = front ++ [')'] ∧ ')' ∉ front := by
  refine ⟨opening ++ (occurrence.name ++ (blanks ++ '(' :: occurrence.parameters)), ?_, ?_⟩
  · simp [written_eq]
  have hopening : ')' ∉ opening := by decide
  have hinName : ')' ∉ occurrence.name := hname.notMem (by decide)
  have hinBlanks : ')' ∉ blanks := fun hmem =>
    absurd (Text.isBlankText_iff.mp hblanks _ hmem) (by decide)
  simp [hopening, hinName, hinBlanks, hparameters]

/-- A text that only more text makes start with an occurrence closes no parameter list. -/
theorem close_notMem_of_completed {more : Text} (hread : atStart? text = none)
    (hstands : StandsIn occurrence [] rest (text ++ more)) : ')' ∉ text := by
  obtain ⟨hname, hparameters, blanks, hblanks, heq⟩ := hstands
  rw [List.nil_append] at heq
  obtain ⟨front, hwritten, hfront⟩ := exists_open_written hname hparameters hblanks
  -- what is written runs past the text, or stands in it whole and would have been read
  rcases List.append_eq_append_iff.mp heq with ⟨missing, htext, -⟩ | ⟨tail, htext, -⟩
  · rcases List.eq_nil_or_concat missing with rfl | ⟨inner, c, rfl⟩
    · rw [List.append_nil] at htext
      rw [← htext, ← List.append_nil (occurrence.written blanks),
        atStart?_written hname hparameters hblanks] at hread
      exact absurd hread (Option.some_ne_none _)
    · rw [hwritten, List.concat_eq_append, ← List.append_assoc] at htext
      obtain ⟨rfl, -⟩ := List.append_inj' htext rfl
      exact fun hmem => hfront (List.mem_append_left _ hmem)
  · rw [htext, atStart?_written hname hparameters hblanks] at hread
    exact absurd hread (Option.some_ne_none _)

/-- More text keeps the occurrences that were found. -/
theorem all_prefix_append (source more : Text) : all source <+: all (source ++ more) := by
  induction source using scanInduction with
  | nil => exact List.nil_prefix
  | skip c rest hread ih =>
      -- the longer text can have an occurrence here only if nothing was found behind this place
      cases hlonger : atStart? (c :: (rest ++ more)) with
      | none =>
          rw [all_skip hread, List.cons_append, all_skip hlonger]
          exact ih
      | some found =>
          have hclose := close_notMem_of_completed hread (standsIn_of_atStart? hlonger)
          rw [all_eq_nil hclose]
          exact List.nil_prefix
  | take text occurrence rest hstands ih =>
      rw [all_take hstands, all_take (hstands.append more)]
      exact List.cons_prefix_cons.mpr ⟨rfl, ih⟩

end ServiceScaffold.Occurrence
