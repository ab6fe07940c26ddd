import Mathlib.Data.List.Infix
import ServiceScaffold.Proofs.Service.Extraction
import ServiceScaffold.Proofs.Service.Parameter

/-! # Services as they are written

A service that is written out of declarations, with any text between them that opens no other one,
is read back declaration by declaration. Its writer is free in what stands around a parameter's
name: modifiers, decorators or a rest marker before it, white space, types and default values
behind it.
-/

namespace ServiceScaffold

/-- A parameter as it is written: its name, with text before it that ends no word and holds no mark,
and behind it white space only, or a mark and any text that ends neither the parameter nor the
list. -/
structure WrittenParameter where
  before : Text
  name : Text
  after : Text
  plain : ∀ c ∈ before, c ∉ [',', ')', ':', '=', '?']
  stops : ∀ c ∈ before.getLast?, isWordChar c = false
  isName : IsName name
  closed : Text.isBlankText after = true ∨ ∃ blanks mark rest, after = blanks ++ mark :: rest ∧
    Text.isBlankText blanks = true ∧ mark ∈ [':', '=', '?'] ∧ ',' ∉ rest ∧ ')' ∉ rest

/-- A method as it is declared. -/
structure Declaration where
  name : Text
  blanks : Text
  parameters : List WrittenParameter
  isName : IsName name
  isBlankText : Text.isBlankText blanks = true

/-- A text in which no declaration starts. -/
structure Filler where
  text : Text
  plain : ¬ "public ".toList <:+: text

/-- A service: declarations, each behind a filler, and a filler at the end. -/
structure WrittenService where
  parts : List (Filler × Declaration)
  last : Filler

def WrittenParameter.text (parameter : WrittenParameter) : Text :=
  parameter.before ++ parameter.name ++ parameter.after

def Declaration.text (declaration : Declaration) : Text :=
  "public " ++ declaration.name ++ declaration.blanks ++ "("
    ++ List.intercalate [','] (declaration.parameters.map WrittenParameter.text) ++ ")"

def WrittenService.text (service : WrittenService) : Text :=
  service.parts.flatMap (fun part => part.1.text ++ part.2.text) ++ service.last.text

def WrittenService.declarations (service : WrittenService) : List Declaration :=
  service.parts.map Prod.snd

/-! ## Parameters -/

namespace WrittenParameter

variable (parameter : WrittenParameter)

theorem before_isMark : ∀ c ∈ parameter.before, Parameter.isMark c = false := by
  intro c hc
  have hplain := parameter.plain c hc
  simp only [List.mem_cons, not_or] at hplain
  simp [Parameter.isMark, hplain]

theorem after_marked :
    Text.isBlankText parameter.after = true ∨ Parameter.marked parameter.after = true := by
  refine parameter.closed.imp_right ?_
  rintro ⟨blanks, mark, rest, heq, hblanks, hmark, -, -⟩
  refine Parameter.marked_iff.mpr ⟨blanks, mark, rest, heq, hblanks, ?_⟩
  simpa [Parameter.isMark, or_assoc] using hmark

theorem notMem_text {c : Char} (hc : c = ',' ∨ c = ')') : c ∉ parameter.text := by
  have hword : isWordChar c = false := by rcases hc with rfl | rfl <;> decide
  have hbefore : c ∉ parameter.before := by
    intro hmem
    have hplain := parameter.plain c hmem
    rcases hc with rfl | rfl <;> simp at hplain
  have hblank (blanks : Text) (hblanks : Text.isBlankText blanks = true) : c ∉ blanks := by
    intro hmem
    have hc' := Text.isBlankText_iff.mp hblanks c hmem
    rcases hc with rfl | rfl <;> simp [Text.isBlank] at hc'
  have hafter : c ∉ parameter.after := by
    rcases parameter.closed with hblanks | ⟨blanks, mark, rest, heq, hblanks, hmark, hcomma, hclose⟩
    · exact hblank _ hblanks
    · have hmarkNe : c ≠ mark := by
        rintro rfl
        rcases hc with rfl | rfl <;> simp at hmark
      have hrest : c ∉ rest := by rcases hc with rfl | rfl <;> assumption
      simp [heq, hblank _ hblanks, hmarkNe, hrest]
  simp [text, hbefore, parameter.isName.notMem hword, hafter]

theorem isBlankText_text : Text.isBlankText parameter.text = false := by
  simp [text, parameter.isName.isBlankText]

/-- The name of a written parameter is read back. -/
theorem name_text : Parameter.name parameter.text = parameter.name := by
  rw [text, List.append_assoc]
  exact Parameter.name_append parameter.before_isMark parameter.stops parameter.isName
    parameter.after_marked

end WrittenParameter

/-! ## Declarations -/

namespace Declaration

variable (declaration : Declaration)

/-- What the scan finds where the declaration stands. -/
def occurrence : Occurrence :=
  ⟨declaration.name, List.intercalate [','] (declaration.parameters.map WrittenParameter.text)⟩

theorem close_notMem_parameters : ')' ∉ declaration.occurrence.parameters := by
  refine Text.notMem_intercalate (by decide) fun part hpart => ?_
  obtain ⟨parameter, -, rfl⟩ := List.mem_map.mp hpart
  exact parameter.notMem_text (Or.inr rfl)

theorem standsIn (rest : Text) :
    declaration.occurrence.StandsIn [] rest (declaration.text ++ rest) :=
  ⟨declaration.isName, declaration.close_notMem_parameters, declaration.blanks,
    declaration.isBlankText, rfl⟩

/-- The parameter list of a declaration is read back. -/
theorem names_parameters :
    Parameter.names declaration.occurrence.parameters =
      declaration.parameters.map WrittenParameter.name := by
  have hcomma : ∀ part ∈ declaration.parameters.map WrittenParameter.text, ',' ∉ part := by
    intro part hpart
    obtain ⟨parameter, -, rfl⟩ := List.mem_map.mp hpart
    exact parameter.notMem_text (Or.inl rfl)
  have hblank : ∀ part ∈ declaration.parameters.map WrittenParameter.text,
      Text.isBlankText part = false := by
    intro part hpart
    obtain ⟨parameter, -, rfl⟩ := List.mem_map.mp hpart
    exact parameter.isBlankText_text
  rw [occurrence, Parameter.names_intercalate hcomma hblank, List.map_map]
  exact List.map_congr_left fun parameter _ => parameter.name_text

end Declaration

/-! ## Fillers -/

namespace Occurrence

/-- No end of the opening is also a front of it. -/
theorem opening_unbordered {inner : Text} (hend : inner <:+ opening) (hfront : inner <+: opening) :
    inner = [] ∨ inner = opening := by
  have hall : ∀ tail ∈ opening.tails, tail <+: opening → tail = [] ∨ tail = opening := by decide
  exact hall inner ((List.mem_tails _ _).mpr hend) hfront

/-- An opening at a place of a text stands in the text, unless it starts at or behind its end. -/
theorem infix_of_opening_append {gap text : Text} (hgap : gap ≠ [])
    (htext : text = [] ∨ opening <+: text) (hopening : opening <+: gap ++ text) :
    opening <:+: gap := by
  obtain ⟨after, hafter⟩ := hopening
  -- the opening ends in the gap, or its last characters are the first of what follows
  rcases List.append_eq_append_iff.mp hafter with ⟨inner, rfl, -⟩ | ⟨inner, hinner, hrest⟩
  · exact (List.prefix_append _ _).isInfix
  · have hend : inner <:+ opening := ⟨gap, hinner.symm⟩
    have hwhole : inner = [] → opening <:+: gap := by
      rintro rfl
      rw [List.append_nil] at hinner
      exact hinner ▸ List.infix_rfl
    rcases htext with rfl | hfront
    · exact hwhole (List.append_eq_nil_iff.mp hrest.symm).1
    · have hshort := List.prefix_of_prefix_length_le ⟨after, hrest.symm⟩ hfront hend.length_le
      rcases opening_unbordered hend hshort with hnil | hall
      · exact hwhole hnil
      · rw [hall] at hinner
        exact absurd (List.self_eq_append_left.mp hinner) hgap

theorem StandsIn.opening_front {occurrence : Occurrence} {rest text : Text}
    (hstands : StandsIn occurrence [] rest text) : opening <+: text := by
  obtain ⟨-, -, blanks, -, rfl⟩ := hstands
  rw [List.nil_append, written_eq, List.append_assoc]
  exact List.prefix_append _ _

/-- The scan passes a text that no declaration starts in. -/
theorem all_filler_append {gap text : Text} (hgap : ¬ opening <:+: gap)
    (htext : text = [] ∨ opening <+: text) : all (gap ++ text) = all text := by
  induction gap with
  | nil => rfl
  | cons c gap ih =>
      have hread : atStart? (c :: (gap ++ text)) = none := by
        cases hread : atStart? (c :: (gap ++ text)) with
        | none => rfl
        | some found =>
            have hopening := (standsIn_of_atStart? hread).opening_front
            exact absurd (infix_of_opening_append (List.cons_ne_nil c gap) htext hopening) hgap
      rw [List.cons_append, all_skip hread]
      exact ih fun hinside => hgap (hinside.trans (List.suffix_cons _ _).isInfix)

end Occurrence

/-! ## Services -/

namespace WrittenService

/-- The scan finds the declarations of a service and nothing else. -/
theorem all_text (service : WrittenService) :
    Occurrence.all service.text = service.declarations.map Declaration.occurrence := by
  obtain ⟨parts, last⟩ := service
  induction parts with
  | nil =>
      have hlast := Occurrence.all_filler_append last.plain (Or.inl rfl)
      rw [List.append_nil] at hlast
      exact hlast
  | cons part parts ih =>
      obtain ⟨filler, declaration⟩ := part
      have hstands := declaration.standsIn (text ⟨parts, last⟩)
      have htext : text ⟨(filler, declaration) :: parts, last⟩ =
          filler.text ++ (declaration.text ++ text ⟨parts, last⟩) := by
        simp [text]
      rw [htext, Occurrence.all_filler_append filler.plain (Or.inr hstands.opening_front),
        Occurrence.all_take hstands, ih]
      rfl

/-- The methods of a written service are its declarations without the constructors, the first of
each name. -/
theorem extractMethods_text (service : WrittenService) :
    (extractMethods service.text).signatures =
      (firstOfEach Declaration.name (service.declarations.filter fun declaration =>
        declaration.name ≠ constructorName)).map fun declaration =>
          ⟨declaration.name, declaration.parameters.map WrittenParameter.name⟩ := by
  rw [extractMethods_signatures, all_text, List.filter_map, firstOfEach_map, List.map_map]
  apply List.map_congr_left
  intro declaration _
  exact congrArg _ declaration.names_parameters

end WrittenService

end ServiceScaffold
