import Mathlib.Data.List.Nodup
import ServiceScaffold.Text.Basic

/-! # Fields

Values by their names. Where no name stands twice, what is found under a name is what stands with it,
in whatever order the fields come.
-/

namespace ServiceScaffold.Fields

variable {α : Type} {fields others : List (Text × α)} {name : Text} {value : α}

theorem lookup_eq_some_iff_mem (hnodup : (fields.map Prod.fst).Nodup) :
    fields.lookup name = some value ↔ (name, value) ∈ fields := by
  constructor
  · intro hfound
    obtain ⟨before, after, hfields, -⟩ := List.lookup_eq_some_iff.mp hfound
    simp [hfields]
  · intro hmem
    obtain ⟨before, after, hfields⟩ := List.append_of_mem hmem
    rw [hfields, List.map_append, List.nodup_append] at hnodup
    refine List.lookup_eq_some_iff.mpr ⟨before, after, hfields, fun field hfield => ?_⟩
    exact bne_iff_ne.mpr fun heq =>
      hnodup.2.2 _ (List.mem_map_of_mem hfield) name List.mem_cons_self heq.symm

theorem lookup_eq_of_perm (hperm : fields.Perm others) (hnodup : (fields.map Prod.fst).Nodup) (name : Text) :
    fields.lookup name = others.lookup name := by
  have hothers : (others.map Prod.fst).Nodup := (hperm.map Prod.fst).nodup_iff.mp hnodup
  ext value
  rw [lookup_eq_some_iff_mem hnodup, lookup_eq_some_iff_mem hothers, hperm.mem_iff]

/-! ## Values by their places -/

theorem map_fst_zip_sublist (names : List Text) (values : List α) :
    ((names.zip values).map Prod.fst).Sublist names := by
  induction names generalizing values with
  | nil => exact .slnil
  | cons name names ih =>
      cases values with
      | nil => exact List.nil_sublist _
      | cons value values => exact .cons_cons name (ih values)

theorem map_snd_zip_eq_take (names : List Text) (values : List α) :
    (names.zip values).map Prod.snd = values.take names.length := by
  induction names generalizing values with
  | nil => rfl
  | cons name names ih =>
      cases values with
      | nil => rfl
      | cons value values => exact congrArg (value :: ·) (ih values)

theorem lookup_zip_eq_some_iff {names : List Text} {values : List α} (hnames : names.Nodup) :
    (names.zip values).lookup name = some value ↔
      ∃ place : Nat, names[place]? = some name ∧ values[place]? = some value := by
  have hnodup : ((names.zip values).map Prod.fst).Nodup :=
    hnames.sublist (map_fst_zip_sublist names values)
  rw [lookup_eq_some_iff_mem hnodup, List.mem_iff_getElem?]
  simp only [List.getElem?_zip_eq_some]

/-! ## Fields that may be left out -/

/-- The fields that are filled in. -/
def filled (fields : List (Text × Option α)) : List (Text × α) :=
  fields.filterMap fun field => field.2.map fun value => (field.1, value)

variable {optional : List (Text × Option α)}

theorem mem_filled_iff : (name, value) ∈ filled optional ↔ (name, some value) ∈ optional := by
  simp only [filled, List.mem_filterMap, Option.map_eq_some_iff, Prod.mk.injEq]
  constructor
  · rintro ⟨⟨other, _⟩, hmem, _, rfl, rfl, rfl⟩
    exact hmem
  · exact fun hmem => ⟨_, hmem, value, rfl, rfl, rfl⟩

theorem map_fst_filled_sublist (optional : List (Text × Option α)) :
    ((filled optional).map Prod.fst).Sublist (optional.map Prod.fst) := by
  induction optional with
  | nil => exact .slnil
  | cons field optional ih =>
      obtain ⟨name, value?⟩ := field
      cases value? with
      | none => exact .cons name ih
      | some value => exact .cons_cons name ih

/-- A field is found as it was filled in, or not at all if it was left out. -/
theorem lookup_filled {value? : Option α} (hnodup : (optional.map Prod.fst).Nodup)
    (hmem : (name, value?) ∈ optional) : (filled optional).lookup name = value? := by
  have hfilled : ((filled optional).map Prod.fst).Nodup := hnodup.sublist (map_fst_filled_sublist optional)
  ext value
  rw [lookup_eq_some_iff_mem hfilled, mem_filled_iff, ← lookup_eq_some_iff_mem hnodup,
    (lookup_eq_some_iff_mem hnodup).mpr hmem]
  exact Option.some_inj

end ServiceScaffold.Fields
