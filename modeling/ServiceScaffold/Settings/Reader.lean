import ServiceScaffold.Settings.Basic
import ServiceScaffold.Toml.Reader

/-!
# Reading settings

The settings that a TOML document gives. A setting that it does not give has its default, and what
is no setting is ignored, but its numbers have to fit. A group of settings may be written as a
table, or as an array of its values in their fixed order; what the array holds beyond them is not
looked at.
-/

namespace ServiceScaffold

namespace Settings

open Toml (Value)

/-- The values of a group of settings, by name; a time has no values. -/
def groupFields? (names : List Text) : Value → Option (List (Text × Value))
  | .table _ fields => some fields
  | .array items => some (names.zip items)
  | .tables items => some (names.zip (items.map fun item => .table item.1 item.2))
  | .time => some []
  | .text _ | .number _ | .flag => none

/-- The text of a setting, or its default if it is not given. -/
def textOr (default : Text) (name : Text) (fields : List (Text × Value)) : Option Text :=
  match fields.lookup name with
  | none => some default
  | some (.text value) => some value
  | some _ => none

/-- The text of an item. -/
def itemText? : Value → Option Text
  | .text value => some value
  | _ => none

/-- The texts of a setting, or its default if it is not given. -/
def textsOr (default : List Text) (name : Text) (fields : List (Text × Value)) :
    Option (List Text) :=
  match fields.lookup name with
  | none => some default
  | some (.array items) => items.mapM itemText?
  | some _ => none

/-- A group of settings, or its default if it is not given. -/
def groupOr {α : Type} (default : α) (names : List Text)
    (read : List (Text × Value) → Option α) : Option Value → Option α
  | none => some default
  | some value => do
    let fields ← groupFields? names value
    if Value.fieldsFit fields then read fields else none

/-- The names of the settings that say how the generator is started. -/
def generatorNames : List Text := ["command", "package", "generator", "additional_properties"]

/-- How the generator is started. -/
def readGenerator (fields : List (Text × Value)) : Option GeneratorSettings := do
  let default : GeneratorSettings := {}
  let command ← textOr default.command "command" fields
  let package ← textOr default.package "package" fields
  let generator ← textOr default.generator "generator" fields
  let properties ← textsOr default.properties "additional_properties" fields
  some { command, package, generator, properties }

/-- The names of the settings that say which files count as services. -/
def filterNames : List Text := ["marker", "exclude"]

/-- Which files count as services. -/
def readFilter (fields : List (Text × Value)) : Option ServiceFilter := do
  let default : ServiceFilter := {}
  let marker ← textOr default.marker "marker" fields
  let exclude ← textsOr default.exclude "exclude" fields
  some { marker, exclude }

/-- The names of the groups of settings. -/
def groupNames : List Text := ["openapi_generator", "services"]

/-- The settings of a table. -/
def ofTable? (table : Toml.Table) : Option Settings := do
  let others := table.fields.filter fun field => !groupNames.contains field.1
  let generator ← groupOr {} generatorNames readGenerator (table.get? "openapi_generator")
  let services ← groupOr {} filterNames readFilter (table.get? "services")
  if Value.fieldsFit others then some { generator, services } else none

/-- The settings of a document. -/
def read? (content : Text) : Option Settings := (Toml.read? content).bind ofTable?

end Settings

end ServiceScaffold
