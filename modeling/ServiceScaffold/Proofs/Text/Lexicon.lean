import ServiceScaffold.Proofs.Text.Run

/-! # Names and literals of a source

A source is put together from code, names and literals in single quotes. A name is read as far as the
characters of names go, and a literal up to the next quote on its line; both are read where they stand
exactly if their own characters let them be.
-/

namespace ServiceScaffold

/-- Which characters stand in names, and which end a line. Beyond ASCII this depends on the version of
the language, so no more than this is said about it. -/
structure Lexicon where
  start : Char → Bool
  part : Char → Bool
  breaksLine : Char → Bool
  start_ascii : ∀ c : Char, c.toNat < 128 → start c = (c.isAlpha || c = '_' || c = '$')
  part_ascii : ∀ c : Char, c.toNat < 128 → part c = (c.isAlphanum || c = '_' || c = '$')
  breaksLine_ascii : ∀ c : Char, c.toNat < 128 → breaksLine c = (c = '\n' || c = '\r')

namespace Lexicon

/-- Only ASCII stands in names. -/
def ascii : Lexicon where
  start c := c.isAlpha || c = '_' || c = '$'
  part c := c.isAlphanum || c = '_' || c = '$'
  breaksLine c := c = '\n' || c = '\r'
  start_ascii _ _ := rfl
  part_ascii _ _ := rfl
  breaksLine_ascii _ _ := rfl

/-- The words that are no identifiers though they are spelled like one. -/
def reservedWords : List Text := List.map String.toList [
  "await", "break", "case", "catch", "class", "const", "continue", "debugger", "default", "delete",
  "do", "else", "enum", "export", "extends", "false", "finally", "for", "function", "if",
  "implements", "import", "in", "instanceof", "interface", "let", "new", "null", "package", "private",
  "protected", "public", "return", "static", "super", "switch", "this", "throw", "true", "try",
  "typeof", "var", "void", "while", "with", "yield"]

variable (lexicon : Lexicon) {name literal rest back : Text} {c : Char}

/-- The text is spelled as a name. -/
def Spells (text : Text) : Prop :=
  ∃ first rest, text = first :: rest ∧ lexicon.start first = true ∧ ∀ c ∈ rest, lexicon.part c = true

/-- The text is a name, and no reserved word. -/
structure Identifier (text : Text) : Prop where
  spells : lexicon.Spells text
  notReserved : text ∉ reservedWords

/-- A literal in single quotes ends at the character, or is not ended on its line. -/
def Ends (c : Char) : Prop := c = '\'' ∨ lexicon.breaksLine c = true

/-- The name that a text starts with. -/
def readName : Text → Option (Text × Text)
  | [] => none
  | c :: rest =>
    if lexicon.start c then some (c :: rest.takeWhile lexicon.part, rest.dropWhile lexicon.part) else none

/-- The literal that is left behind its opening quote, if it has no escapes. -/
def readLiteral : Text → Option (Text × Text)
  | [] => none
  | c :: rest =>
    if c = '\'' then some ([], rest)
    else if c = '\\' || lexicon.breaksLine c then none
    else (readLiteral rest).map fun (literal, rest) => (c :: literal, rest)

variable {lexicon}

/-! ## Names -/

theorem start_eq_ascii (hc : c.toNat < 128) : lexicon.start c = ascii.start c :=
  (lexicon.start_ascii c hc).trans (ascii.start_ascii c hc).symm

theorem part_eq_ascii (hc : c.toNat < 128) : lexicon.part c = ascii.part c :=
  (lexicon.part_ascii c hc).trans (ascii.part_ascii c hc).symm

theorem Spells.ne_nil (hspells : lexicon.Spells name) : name ≠ [] := by
  obtain ⟨first, rest, rfl, -⟩ := hspells
  exact List.cons_ne_nil first rest

/-- Which ASCII texts are spelled as names is the same in every version of the language. -/
theorem spells_iff_ascii (hname : ∀ c ∈ name, c.toNat < 128) :
    lexicon.Spells name ↔ ascii.Spells name := by
  cases name with
  | nil => exact iff_of_false (fun hspells => hspells.ne_nil rfl) fun hspells => hspells.ne_nil rfl
  | cons first rest =>
      obtain ⟨hfirst, hrest⟩ := List.forall_mem_cons.mp hname
      constructor
      · rintro ⟨_, _, ⟨⟩, hstart, hparts⟩
        exact ⟨first, rest, rfl, start_eq_ascii hfirst ▸ hstart,
          fun c hc => part_eq_ascii (hrest c hc) ▸ hparts c hc⟩
      · rintro ⟨_, _, ⟨⟩, hstart, hparts⟩
        exact ⟨first, rest, rfl, (start_eq_ascii hfirst).trans hstart,
          fun c hc => (part_eq_ascii (hrest c hc)).trans (hparts c hc)⟩

/-- In front of a character that is in no name, a name is read exactly if it is one. -/
theorem readName_iff (hback : ∀ c ∈ back.head?, lexicon.part c = false) :
    lexicon.readName (name ++ back) = some (name, back) ↔ lexicon.Spells name := by
  cases name with
  | nil =>
      refine iff_of_false (fun hread => ?_) (fun ⟨_, _, hnil, _⟩ => List.cons_ne_nil _ _ hnil.symm)
      rw [List.nil_append] at hread
      cases back with
      | nil => cases hread
      | cons c back =>
          rw [readName] at hread
          split at hread <;> cases hread
  | cons first rest =>
      rw [List.cons_append, readName]
      constructor
      · intro hread
        split at hread
        next hstart =>
          obtain ⟨hrest, -⟩ := Prod.mk.inj (Option.some.inj hread)
          refine ⟨first, rest, rfl, hstart, fun c hc => ?_⟩
          rw [← (List.cons.inj hrest).2] at hc
          exact List.all_eq_true.mp List.all_takeWhile c hc
        next => cases hread
      · rintro ⟨_, _, ⟨⟩, hstart, hrest⟩
        rw [if_pos hstart, Text.takeWhile_run hrest hback, Text.dropWhile_run hrest hback]

/-- A name goes on with characters of names. -/
theorem spells_append_iff (hname : name ≠ []) (hrest : ∀ c ∈ rest, lexicon.part c = true) :
    lexicon.Spells (name ++ rest) ↔ lexicon.Spells name := by
  obtain ⟨first, more, rfl⟩ := List.exists_cons_of_ne_nil hname
  constructor
  · rintro ⟨_, _, ⟨⟩, hstart, hparts⟩
    exact ⟨first, more, rfl, hstart, fun c hc => hparts c (List.mem_append_left _ hc)⟩
  · rintro ⟨_, _, ⟨⟩, hstart, hparts⟩
    refine ⟨first, more ++ rest, rfl, hstart, fun c hc => ?_⟩
    exact (List.mem_append.mp hc).elim (hparts c) (hrest c)

/-! ## Literals -/

/-- A literal is read up to its closing quote exactly if nothing in it ends it before. -/
theorem readLiteral_iff (hescape : '\\' ∉ literal) :
    lexicon.readLiteral (literal ++ '\'' :: back) = some (literal, back) ↔
      ∀ c ∈ literal, ¬ lexicon.Ends c := by
  induction literal with
  | nil => simp [readLiteral]
  | cons c literal ih =>
      -- a character ends the literal here, or it is passed over and the rest decides
      obtain ⟨hc, hescape⟩ := not_or.mp (mt List.mem_cons.mpr hescape)
      rw [List.cons_append, readLiteral, List.forall_mem_cons, ← ih hescape]
      split
      next hquote =>
        exact iff_of_false (fun hread => nomatch hread) fun hends => hends.1 (Or.inl hquote)
      next hquote =>
        split
        next hbreaks =>
          rw [Bool.or_eq_true, decide_eq_true_eq] at hbreaks
          refine iff_of_false (fun hread => nomatch hread) fun hends => hends.1 (Or.inr ?_)
          exact hbreaks.resolve_left (Ne.symm hc)
        next hbreaks =>
          have hnot : ¬ lexicon.Ends c := by
            rintro (heq | hline)
            · exact hquote heq
            · exact hbreaks (Bool.or_eq_true_iff.mpr (Or.inr hline))
          rw [and_iff_right hnot]
          cases lexicon.readLiteral (literal ++ '\'' :: back) with
          | none => simp
          | some read => simp [Prod.ext_iff]

/-- The character is ASCII, and in a literal it is nothing but itself. -/
def isPlain (c : Char) : Bool := c.toNat < 128 && !(['\'', '\\', '\n', '\r'].contains c)

theorem isPlain_of_ends (hends : lexicon.Ends c) : isPlain c = false := by
  rcases hends with rfl | hbreaks
  · rfl
  · by_cases hascii : c.toNat < 128
    · rw [lexicon.breaksLine_ascii c hascii] at hbreaks
      have hline : c = '\n' ∨ c = '\r' := by simpa using hbreaks
      rcases hline with rfl | rfl <;> rfl
    · rw [isPlain, decide_eq_false hascii, Bool.false_and]

theorem not_ends_of_isPlain (hplain : literal.all isPlain = true) :
    ∀ c ∈ literal, ¬ lexicon.Ends c := by
  intro c hc hends
  have hnot := List.all_eq_true.mp hplain c hc
  rw [isPlain_of_ends hends] at hnot
  cases hnot

end Lexicon

/-! ## Sources -/

/-- A part of a source: code, a name, or what stands in a literal. -/
inductive Piece
  | code (text : Text)
  | name (text : Text)
  | literal (text : Text)

namespace Piece

/-- The part as it stands in the source. -/
def text : Piece → Text
  | code text => text
  | name text => text
  | literal text => "'" ++ text ++ "'"

/-- The source that is put together from its parts. -/
def source (pieces : List Piece) : Text := pieces.flatMap text

def names (pieces : List Piece) : List Text :=
  pieces.filterMap fun
    | name text => some text
    | _ => none

def literals (pieces : List Piece) : List Text :=
  pieces.filterMap fun
    | literal text => some text
    | _ => none

end Piece

namespace Lexicon

variable (lexicon : Lexicon)

/-- Every name and every literal of a source is read where it stands. -/
def Reads : List Piece → Prop
  | [] => True
  | .code _ :: rest => Reads rest
  | .name text :: rest =>
    lexicon.readName (text ++ Piece.source rest) = some (text, Piece.source rest) ∧ Reads rest
  | .literal text :: rest =>
    lexicon.readLiteral (text ++ '\'' :: Piece.source rest) = some (text, Piece.source rest) ∧ Reads rest

/-- Behind each name stands a character that is in no name. -/
def Separated : List Piece → Prop
  | [] => True
  | .name _ :: rest => (∀ c ∈ (Piece.source rest).head?, lexicon.part c = false) ∧ Separated rest
  | _ :: rest => Separated rest

variable {lexicon} {pieces : List Piece}

theorem reads_iff (hseparated : lexicon.Separated pieces)
    (hescape : ∀ literal ∈ Piece.literals pieces, '\\' ∉ literal) :
    lexicon.Reads pieces ↔ (∀ name ∈ Piece.names pieces, lexicon.Spells name) ∧
      ∀ literal ∈ Piece.literals pieces, ∀ c ∈ literal, ¬ lexicon.Ends c := by
  induction pieces with
  | nil => simp [Reads, Piece.names, Piece.literals]
  | cons piece pieces ih =>
      cases piece with
      | code text => exact ih hseparated hescape
      | name text =>
          have hnames : Piece.names (.name text :: pieces) = text :: Piece.names pieces := rfl
          rw [Reads, readName_iff hseparated.1, ih hseparated.2 hescape, hnames, List.forall_mem_cons,
            and_assoc]
          rfl
      | literal text =>
          have hliterals : Piece.literals (.literal text :: pieces) = text :: Piece.literals pieces := rfl
          rw [hliterals, List.forall_mem_cons] at hescape
          rw [Reads, readLiteral_iff hescape.1, ih hseparated hescape.2, hliterals, List.forall_mem_cons]
          exact and_left_comm

end Lexicon

end ServiceScaffold
