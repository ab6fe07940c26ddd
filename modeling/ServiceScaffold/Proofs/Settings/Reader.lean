import ServiceScaffold.Proofs.Fields
import ServiceScaffold.Settings.Reader

/-! # Settings of a document

Which settings a TOML document gives. Each setting is what its own group says of it, or it keeps its
default, whatever is said of the others; a document gives no settings only if one of its groups is none,
if a setting is of another kind than its own, or if a number does not fit.
-/

namespace ServiceScaffold.Settings

open Toml (Value)

variable {names : List Text} {name : Text} {group value : Value} {group? : Option Value}
variable {fields : List (Text × Value)}

/-! ## What a document says -/

/-- May the value stand for a group of settings? A time stands for one that says nothing. -/
def IsGroup : Value → Prop
  | .table _ _ | .array _ | .tables _ | .time => True
  | .text _ | .number _ | .flag => False

/-- What a group says of a setting: a table by the setting's name, an array by the setting's place among
those of the group. -/
inductive Says (names : List Text) : Value → Text → Value → Prop
  | named {origin : Toml.Origin} {fields : List (Text × Value)} {name : Text} {value : Value} :
    fields.lookup name = some value → Says names (.table origin fields) name value
  | placed {items : List Value} {place : Nat} {name : Text} {value : Value} :
    names[place]? = some name → items[place]? = some value → Says names (.array items) name value
  | placedTable {items : List (Toml.Origin × List (Text × Value))} {place : Nat} {name : Text}
      {origin : Toml.Origin} {fields : List (Text × Value)} :
    names[place]? = some name → items[place]? = some (origin, fields) →
      Says names (.tables items) name (.table origin fields)

/-- The values of a group that are looked at: all of a table, and of an array as many as the group has
settings. -/
def lookedAt (names : List Text) : Value → List Value
  | .table _ fields => fields.map Prod.snd
  | .array items => items.take names.length
  | .tables items => (items.take names.length).map fun item => .table item.1 item.2
  | .time | .text _ | .number _ | .flag => []

/-- The group, if there is one, is a group, and the numbers in it fit. -/
structure Readable (names : List Text) (group? : Option Value) : Prop where
  isGroup : ∀ group, group? = some group → IsGroup group
  fits : ∀ group, group? = some group → ∀ value ∈ lookedAt names group, value.fits = true

/-- The setting is what its group says of it, or its default if nothing is said. -/
def Follows {α : Type} (spelled : α → Value) (default : α) (names : List Text) (name : Text)
    (group? : Option Value) (setting : α) : Prop :=
  (∃ group, group? = some group ∧ Says names group name (spelled setting)) ∨
    (∀ group, group? = some group → ∀ value, ¬ Says names group name value) ∧ setting = default

/-- A list of texts as a value. -/
def textItems (texts : List Text) : Value := .array (texts.map .text)

/-- What says how the generator is started is `base`, with exactly the settings replaced that the group
says something of. -/
structure ReplacesGenerator (base : GeneratorSettings) (group? : Option Value)
    (settings : GeneratorSettings) : Prop where
  readable : Readable generatorNames group?
  command : Follows .text base.command generatorNames "command" group? settings.command
  package : Follows .text base.package generatorNames "package" group? settings.package
  generator : Follows .text base.generator generatorNames "generator" group? settings.generator
  properties : Follows textItems base.properties generatorNames "additional_properties" group?
    settings.properties

/-- What says which files count as services is `base`, with exactly the settings replaced that the group
says something of. -/
structure ReplacesFilter (base : ServiceFilter) (group? : Option Value) (filter : ServiceFilter) :
    Prop where
  readable : Readable filterNames group?
  marker : Follows .text base.marker filterNames "marker" group? filter.marker
  exclude : Follows textItems base.exclude filterNames "exclude" group? filter.exclude

/-- The settings are `base`, with exactly the ones replaced that the document says something of. What is
no setting is passed over, if its numbers fit. -/
structure Replaces (base : Settings) (table : Toml.Table) (settings : Settings) : Prop where
  generator : ReplacesGenerator base.generator (table.get? "openapi_generator") settings.generator
  services : ReplacesFilter base.services (table.get? "services") settings.services
  others : ∀ field ∈ table.fields, field.1 ∉ groupNames → field.2.fits = true

/-! ## Groups as fields -/

theorem fieldsFit_iff : Value.fieldsFit fields = true ↔ ∀ field ∈ fields, field.2.fits = true := by
  induction fields with
  | nil => simp [Value.fieldsFit]
  | cons field fields ih =>
      obtain ⟨name, value⟩ := field
      rw [Value.fieldsFit, Bool.and_eq_true, ih, List.forall_mem_cons]

theorem exists_groupFields_iff : (∃ fields, groupFields? names group = some fields) ↔ IsGroup group := by
  cases group <;> simp [groupFields?, IsGroup]

theorem says_iff (hnames : names.Nodup) (hfields : groupFields? names group = some fields) :
    Says names group name value ↔ fields.lookup name = some value := by
  cases group with
  | table origin inner =>
      cases hfields
      refine ⟨fun hsays => ?_, .named⟩
      cases hsays with
      | named hfound => exact hfound
  | array items =>
      cases hfields
      rw [Fields.lookup_zip_eq_some_iff hnames]
      refine ⟨fun hsays => ?_, fun ⟨_, hname, hitem⟩ => .placed hname hitem⟩
      cases hsays with
      | placed hname hitem => exact ⟨_, hname, hitem⟩
  | tables items =>
      cases hfields
      rw [Fields.lookup_zip_eq_some_iff hnames]
      simp only [List.getElem?_map, Option.map_eq_some_iff]
      constructor
      · intro hsays
        cases hsays with
        | placedTable hname hitem => exact ⟨_, hname, _, hitem, rfl⟩
      · rintro ⟨place, hname, item, hitem, rfl⟩
        exact .placedTable hname hitem
  | time =>
      cases hfields
      exact ⟨fun hsays => (nomatch hsays), fun hfound => (nomatch hfound)⟩
  | text => cases hfields
  | number => cases hfields
  | flag => cases hfields

theorem lookedAt_eq (hfields : groupFields? names group = some fields) :
    lookedAt names group = fields.map Prod.snd := by
  cases group with
  | table origin inner =>
      cases hfields
      rfl
  | array items =>
      cases hfields
      exact (Fields.map_snd_zip_eq_take names items).symm
  | tables items =>
      cases hfields
      rw [Fields.map_snd_zip_eq_take, ← List.map_take]
      rfl
  | time =>
      cases hfields
      rfl
  | text => cases hfields
  | number => cases hfields
  | flag => cases hfields

/-- The fields are what is said of the settings of a group. -/
def FieldsOf (names : List Text) (group? : Option Value) (fields : List (Text × Value)) : Prop :=
  ∀ name value, fields.lookup name = some value ↔
    ∃ group, group? = some group ∧ Says names group name value

variable {α : Type} {default setting : α} {read : List (Text × Value) → Option α}

theorem readable_of_groupOr (hread : groupOr default names read group? = some setting) :
    Readable names group? := by
  cases group? with
  | none => exact ⟨fun _ hgroup => (nomatch hgroup), fun _ hgroup => (nomatch hgroup)⟩
  | some group =>
      obtain ⟨fields, hfields, hread⟩ := Option.bind_eq_some_iff.mp hread
      split at hread
      next hfit =>
        refine ⟨?_, ?_⟩
        · rintro _ ⟨⟩
          exact exists_groupFields_iff.mp ⟨fields, hfields⟩
        · rintro _ ⟨⟩ value hvalue
          rw [lookedAt_eq hfields] at hvalue
          obtain ⟨field, hfield, rfl⟩ := List.mem_map.mp hvalue
          exact fieldsFit_iff.mp hfit field hfield
      next => cases hread

/-- A group that can be read is read as its fields; without a group there are none. -/
theorem Readable.exists_fields (hreadable : Readable names group?) (hnames : names.Nodup)
    (hdefault : read [] = some default) :
    ∃ fields, FieldsOf names group? fields ∧ groupOr default names read group? = read fields := by
  cases group? with
  | none => exact ⟨[], fun name value => by simp, hdefault.symm⟩
  | some group =>
      obtain ⟨fields, hfields⟩ := exists_groupFields_iff.mpr (hreadable.isGroup group rfl)
      have hfit : Value.fieldsFit fields = true := by
        refine fieldsFit_iff.mpr fun field hfield => hreadable.fits group rfl field.2 ?_
        rw [lookedAt_eq hfields]
        exact List.mem_map_of_mem hfield
      refine ⟨fields, fun name value => ?_, ?_⟩
      · rw [← says_iff hnames hfields]
        simp
      · rw [groupOr, hfields]
        exact if_pos hfit

/-- A group that can be read gives what its fields are read as, and any other group gives nothing. -/
theorem groupOr_eq_some_iff {replaces : Prop} (hnames : names.Nodup) (hdefault : read [] = some default)
    (hreadable : replaces → Readable names group?)
    (hread : Readable names group? →
      ∀ fields, FieldsOf names group? fields → (read fields = some setting ↔ replaces)) :
    groupOr default names read group? = some setting ↔ replaces := by
  constructor
  · intro hsetting
    have hreadable := readable_of_groupOr hsetting
    obtain ⟨fields, hfields, heq⟩ := hreadable.exists_fields hnames hdefault
    exact (hread hreadable fields hfields).mp (heq ▸ hsetting)
  · intro hreplaces
    obtain ⟨fields, hfields, heq⟩ := (hreadable hreplaces).exists_fields hnames hdefault
    rw [heq]
    exact (hread (hreadable hreplaces) fields hfields).mpr hreplaces

/-! ## Single settings -/

theorem follows_iff {spelled : α → Value} (hfields : FieldsOf names group? fields) :
    Follows spelled default names name group? setting ↔
      fields.lookup name = some (spelled setting) ∨ fields.lookup name = none ∧ setting = default := by
  have hnone : fields.lookup name = none ↔
      ∀ group, group? = some group → ∀ value, ¬ Says names group name value := by
    simp only [Option.eq_none_iff_forall_ne_some, ne_eq, hfields name, not_exists, not_and]
    exact ⟨fun h group hgroup value => h value group hgroup, fun h value group hgroup => h group hgroup value⟩
  rw [hnone, hfields name]
  rfl

theorem textOr_iff_follows {default setting : Text} (hfields : FieldsOf names group? fields) :
    textOr default name fields = some setting ↔ Follows .text default names name group? setting := by
  rw [follows_iff hfields]
  unfold textOr
  split
  next hnone => simp [hnone, eq_comm]
  next found hfound => simp [hfound]
  next found hother hfound =>
    refine iff_of_false (by simp) ?_
    rintro (hsome | ⟨hnone, -⟩)
    · exact hother _ (Option.some.inj (hfound.symm.trans hsome))
    · cases hfound.symm.trans hnone

theorem mapM_itemText?_eq_some_iff {items : List Value} {texts : List Text} :
    items.mapM itemText? = some texts ↔ items = texts.map .text := by
  induction items generalizing texts with
  | nil => cases texts <;> simp
  | cons item items ih =>
      rw [List.mapM_cons]
      simp only [Option.bind_eq_bind, Option.bind_eq_some_iff, ih, Option.pure_def, Option.some.injEq]
      constructor
      · rintro ⟨text, htext, rest, rfl, rfl⟩
        unfold itemText? at htext
        split at htext
        next =>
          cases htext
          rfl
        next => cases htext
      · cases texts with
        | nil => exact fun hitems => (nomatch hitems)
        | cons text texts =>
            rw [List.map_cons, List.cons.injEq]
            rintro ⟨rfl, rfl⟩
            exact ⟨text, rfl, texts, rfl, rfl⟩

theorem textsOr_iff_follows {default setting : List Text} (hfields : FieldsOf names group? fields) :
    textsOr default name fields = some setting ↔ Follows textItems default names name group? setting := by
  rw [follows_iff hfields]
  unfold textsOr
  split
  next hnone => simp [hnone, eq_comm]
  next items hfound => simp [hfound, mapM_itemText?_eq_some_iff, textItems]
  next found hother hfound =>
    refine iff_of_false (by simp) ?_
    rintro (hsome | ⟨hnone, -⟩)
    · exact hother _ (Option.some.inj (hfound.symm.trans hsome))
    · cases hfound.symm.trans hnone

/-! ## Documents -/

/-- Where nothing is said, the defaults stay. -/
theorem readGenerator_nil : readGenerator [] = some {} := rfl

theorem readFilter_nil : readFilter [] = some {} := rfl

theorem readGenerator_eq_some_iff {generator : GeneratorSettings} :
    readGenerator fields = some generator ↔
      textOr ({} : GeneratorSettings).command "command" fields = some generator.command ∧
        textOr ({} : GeneratorSettings).package "package" fields = some generator.package ∧
        textOr ({} : GeneratorSettings).generator "generator" fields = some generator.generator ∧
        textsOr ({} : GeneratorSettings).properties "additional_properties" fields =
          some generator.properties := by
  obtain ⟨command, package, name, properties⟩ := generator
  simp only [readGenerator, Option.bind_eq_bind, Option.bind_eq_some_iff, Option.some.injEq,
    GeneratorSettings.mk.injEq]
  constructor
  · rintro ⟨_, hcommand, _, hpackage, _, hgenerator, _, hproperties, rfl, rfl, rfl, rfl⟩
    exact ⟨hcommand, hpackage, hgenerator, hproperties⟩
  · rintro ⟨hcommand, hpackage, hgenerator, hproperties⟩
    exact ⟨_, hcommand, _, hpackage, _, hgenerator, _, hproperties, rfl, rfl, rfl, rfl⟩

theorem readFilter_eq_some_iff {filter : ServiceFilter} : readFilter fields = some filter ↔
    textOr ({} : ServiceFilter).marker "marker" fields = some filter.marker ∧
      textsOr ({} : ServiceFilter).exclude "exclude" fields = some filter.exclude := by
  obtain ⟨marker, exclude⟩ := filter
  simp only [readFilter, Option.bind_eq_bind, Option.bind_eq_some_iff, Option.some.injEq,
    ServiceFilter.mk.injEq]
  constructor
  · rintro ⟨_, hmarker, _, hexclude, rfl, rfl⟩
    exact ⟨hmarker, hexclude⟩
  · rintro ⟨hmarker, hexclude⟩
    exact ⟨_, hmarker, _, hexclude, rfl, rfl⟩

theorem nodup_generatorNames : generatorNames.Nodup := by decide

theorem nodup_filterNames : filterNames.Nodup := by decide

theorem groupOr_generator_iff {generator : GeneratorSettings} :
    groupOr {} generatorNames readGenerator group? = some generator ↔
      ReplacesGenerator {} group? generator := by
  refine groupOr_eq_some_iff nodup_generatorNames readGenerator_nil (fun h => h.readable)
    fun hreadable fields hfields => ?_
  rw [readGenerator_eq_some_iff, textOr_iff_follows hfields, textOr_iff_follows hfields,
    textOr_iff_follows hfields, textsOr_iff_follows hfields]
  constructor
  · rintro ⟨hcommand, hpackage, hgenerator, hproperties⟩
    exact ⟨hreadable, hcommand, hpackage, hgenerator, hproperties⟩
  · rintro ⟨-, hcommand, hpackage, hgenerator, hproperties⟩
    exact ⟨hcommand, hpackage, hgenerator, hproperties⟩

theorem groupOr_filter_iff {filter : ServiceFilter} :
    groupOr {} filterNames readFilter group? = some filter ↔ ReplacesFilter {} group? filter := by
  refine groupOr_eq_some_iff nodup_filterNames readFilter_nil (fun h => h.readable)
    fun hreadable fields hfields => ?_
  rw [readFilter_eq_some_iff, textOr_iff_follows hfields, textsOr_iff_follows hfields]
  constructor
  · rintro ⟨hmarker, hexclude⟩
    exact ⟨hreadable, hmarker, hexclude⟩
  · rintro ⟨-, hmarker, hexclude⟩
    exact ⟨hmarker, hexclude⟩

theorem fieldsFit_others_iff {table : Toml.Table} :
    Value.fieldsFit (table.fields.filter fun field => !groupNames.contains field.1) = true ↔
      ∀ field ∈ table.fields, field.1 ∉ groupNames → field.2.fits = true := by
  simp [fieldsFit_iff]

/-- A table gives the defaults, with exactly the settings replaced that it says something of. -/
theorem ofTable?_eq_some_iff {table : Toml.Table} {settings : Settings} :
    ofTable? table = some settings ↔ Replaces {} table settings := by
  simp only [ofTable?, Option.bind_eq_bind, Option.bind_eq_some_iff, groupOr_generator_iff,
    groupOr_filter_iff, fieldsFit_others_iff]
  constructor
  · rintro ⟨generator, hgenerator, services, hservices, hsettings⟩
    split at hsettings
    next hothers =>
      cases hsettings
      exact ⟨hgenerator, hservices, hothers⟩
    next => cases hsettings
  · rintro ⟨hgenerator, hservices, hothers⟩
    exact ⟨_, hgenerator, _, hservices, if_pos hothers⟩

end ServiceScaffold.Settings
