import ServiceScaffold.CommandLine.Grammar
import ServiceScaffold.Proofs.Text.Run

/-! # Options in one word

An option that is written with its value in one word is settled as soon as it is read: it is recorded, and
nothing stays pending behind it. So options of different names are recorded one after another, in whatever
order they come, and behind the separator every word is an operand.
-/

namespace ServiceScaffold.CommandLine

variable {grammar : Grammar} {reading : Reading} {rule : OptionRule} {kind : ValueKind}
variable {word name value : Text} {option : Text × Text} {options : List (Text × Text)}

/-- An option written with its value. -/
def valueWord (name value : Text) : Text := "--" ++ name ++ "=" ++ value

/-- The word that ends the options. -/
def separator : Text := "--"

/-- The value starts behind the first `=`, whatever it is. -/
theorem ofText_valueWord (hname : '=' ∉ name) (value : Text) :
    Word.ofText (valueWord name value) = .long name (some value) := by
  have hword : valueWord name value = '-' :: '-' :: (name ++ '=' :: value) := by
    simp [valueWord]
  have hsplit : Text.splitFirst? '=' (name ++ '=' :: value) = some (name, value) :=
    Text.splitFirst?_eq_some_iff.mpr ⟨hname, rfl⟩
  obtain ⟨c, rest, hbody⟩ : ∃ c rest, name ++ '=' :: value = c :: rest := by
    cases name <;> exact ⟨_, _, rfl⟩
  rw [hword]
  rw [hbody] at hsplit ⊢
  unfold Word.ofText
  simp only [hsplit]

namespace Reading

/-- The reading with one more option recorded. -/
def adding (reading : Reading) (option : Text × Text) : Reading :=
  { reading with given := reading.given ++ [option] }

theorem has_adding_of_ne (hne : name ≠ option.1) : (reading.adding option).has name = reading.has name := by
  have hnone : [option].lookup name = none := by
    rw [List.lookup_eq_none_iff]
    simpa using hne
  rw [has, has, adding, List.lookup_append, hnone, Option.or_none]

theorem settle_of_idle (hidle : reading.pending = none) : reading.settle = .ok reading := by
  unfold settle
  rw [hidle]

theorem record_of_new (hnew : reading.has name = false) (hvalue : isAcceptable kind value = true) :
    reading.record name kind value = .ok (reading.adding (name, value)) := by
  rw [record, hnew, hvalue]
  rfl

theorem readAttached_of_new (hidle : reading.pending = none) (hnew : reading.has rule.name = false)
    (hvalue : isAcceptable kind value = true) :
    reading.readAttached rule kind value = .ok (reading.adding (rule.name, value)) := by
  rw [readAttached, settle_of_idle hidle]
  exact record_of_new hnew hvalue

theorem readSwitch_of_new (hidle : reading.pending = none) (hnew : reading.has rule.name = false)
    (hflag : rule.kind = .flag) : reading.readSwitch rule = .ok (reading.adding (rule.name, [])) := by
  rw [readSwitch, settle_of_idle hidle, hflag]
  exact record_of_new hnew rfl

end Reading

/-! ## Single options -/

/-- The word is an option in full: in front of any words it is recorded at once, if it is new and nothing is
pending. -/
def Settles (grammar : Grammar) (word : Text) (option : Text × Text) : Prop :=
  ∀ (reading : Reading) (rest : List Text), reading.pending = none → reading.has option.1 = false →
    reading.readWords grammar (word :: rest) = (reading.adding option).readWords grammar rest

theorem settles_valueWord (hrule : grammar.options.find? (fun rule => rule.name = name) = some rule)
    (hkind : rule.kind = .value kind) (hname : '=' ∉ name) (hvalue : Reading.isAcceptable kind value = true) :
    Settles grammar (valueWord name value) (name, value) := by
  intro reading rest hidle hnew
  obtain rfl : rule.name = name := by simpa using List.find?_some hrule
  have hread : reading.readLong grammar rule.name (some value) = .ok (reading.adding (rule.name, value)) := by
    rw [Reading.readLong, hrule]
    simp only [hkind]
    exact Reading.readAttached_of_new hidle hnew hvalue
  rw [Reading.readWords, ofText_valueWord hname]
  simp only [hread]
  rfl

theorem settles_long (hword : Word.ofText word = .long name none)
    (hrule : grammar.options.find? (fun rule => rule.name = name) = some rule) (hflag : rule.kind = .flag) :
    Settles grammar word (name, []) := by
  intro reading rest hidle hnew
  obtain rfl : rule.name = name := by simpa using List.find?_some hrule
  have hread : reading.readLong grammar rule.name none = .ok (reading.adding (rule.name, [])) := by
    rw [Reading.readLong, hrule]
    simp only [hflag]
    exact Reading.readSwitch_of_new hidle hnew hflag
  rw [Reading.readWords, hword]
  simp only [hread]
  rfl

theorem settles_letter {letter : Char} (hword : Word.ofText word = .letters [letter])
    (hrule : grammar.options.find? (fun rule => rule.letter = some letter) = some rule)
    (hflag : rule.kind = .flag) : Settles grammar word (rule.name, []) := by
  intro reading rest hidle hnew
  have hread : reading.readLetters grammar [letter] = .ok (reading.adding (rule.name, [])) := by
    rw [Reading.readLetters, hrule]
    simp only [hflag, Reading.readSwitch_of_new hidle hnew hflag]
    rfl
  rw [Reading.readWords, hword]
  simp only [hread]
  rfl

/-! ## Command lines -/

/-- Options of different names are recorded in the order in which they come. -/
theorem readWords_map {spelled : Text × Text → Text} (hidle : reading.pending = none)
    (hnew : ∀ option ∈ options, reading.has option.1 = false) (hnodup : (options.map Prod.fst).Nodup)
    (hsettles : ∀ option ∈ options, Settles grammar (spelled option) option) (rest : List Text) :
    reading.readWords grammar (options.map spelled ++ rest) =
      { reading with given := reading.given ++ options }.readWords grammar rest := by
  induction options generalizing reading with
  | nil => rw [List.append_nil]; rfl
  | cons option options ih =>
      obtain ⟨hsettle, hsettles⟩ := List.forall_mem_cons.mp hsettles
      obtain ⟨hfirst, hnew⟩ := List.forall_mem_cons.mp hnew
      obtain ⟨hother, hnodup⟩ := List.nodup_cons.mp hnodup
      have hstill : ∀ other ∈ options, (reading.adding option).has other.1 = false := fun other hmem => by
        have hne : other.1 ≠ option.1 := fun heq => hother (heq ▸ List.mem_map_of_mem hmem)
        rw [Reading.has_adding_of_ne hne]
        exact hnew other hmem
      have hidle' : (reading.adding option).pending = none := hidle
      rw [List.map_cons, List.cons_append, hsettle reading _ hidle hfirst, ih hidle' hstill hnodup hsettles]
      simp [Reading.adding]

theorem readOperands_many (hmany : grammar.operands = .many) (hidle : reading.pending = none)
    (texts : List Text) :
    reading.readOperands grammar texts = .ok { reading with operands := reading.operands ++ texts } := by
  induction texts generalizing reading with
  | nil => rw [List.append_nil]; rfl
  | cons text texts ih =>
      let next : Reading := { reading with operands := reading.operands ++ [text] }
      have hread : reading.readOperand grammar text = .ok next := by
        rw [Reading.readOperand, hmany]
        simp only [Reading.settle_of_idle hidle]
        rfl
      have hidle' : next.pending = none := hidle
      rw [Reading.readOperands, hread]
      refine (ih hidle').trans ?_
      rw [List.append_assoc]
      rfl

/-- Behind the separator every word is an operand, also one that looks like an option. -/
theorem readWords_separator (hmany : grammar.operands = .many) (hidle : reading.pending = none)
    (texts : List Text) :
    reading.readWords grammar (separator :: texts) =
      .ok { reading with operands := reading.operands ++ texts } := by
  have hword : Word.ofText separator = .separator := rfl
  rw [Reading.readWords, hword]
  simp only [readOperands_many hmany hidle]
  exact Reading.settle_of_idle hidle

end ServiceScaffold.CommandLine
