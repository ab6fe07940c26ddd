import ServiceScaffold.Json.Basic
import ServiceScaffold.Run.Failure
import ServiceScaffold.Yaml.Node
import ServiceScaffold.Yaml.Number

/-!
# Data of a document

What a document holds, whether it is written in JSON or in YAML. The two differ in their scalars: a
JSON scalar is one thing, but a YAML scalar is taken for what its place asks for, and only where
nothing particular is asked for does it settle on one thing. So a scalar is described by everything
that it can be taken for.
-/

namespace ServiceScaffold.OpenApi

/-- What a scalar is where nothing particular is asked for. -/
inductive Plain
  | null
  | flag
  | number (kind : NumberKind)
  | text (value : Text)
  deriving DecidableEq, Repr

/-- What a scalar says where something optional is asked for. -/
inductive Presence
  /-- That it is there. -/
  | present
  /-- That it is missing. -/
  | missing
  /-- Neither: it is said to be nothing, but is written as something. -/
  | contradictory
  deriving DecidableEq, Repr

/-- What a scalar can be taken for. -/
structure Scalar where
  /-- The text that it is where a text is asked for. -/
  text? : Option Text
  /-- What it says where something optional is asked for. -/
  presence : Presence
  /-- Does it count as a collection without members? -/
  isVacant : Bool
  /-- Is it a truth value where one is asked for? -/
  isFlag : Bool
  /-- What it is where nothing particular is asked for, if it is acceptable there. -/
  plain? : Option Plain
  deriving DecidableEq, Repr

/-- A scalar that is one thing only. -/
def Scalar.ofPlain : Plain → Scalar
  | .null => ⟨none, .missing, false, false, some .null⟩
  | .flag => ⟨none, .present, false, true, some .flag⟩
  | .number kind => ⟨none, .present, false, false, some (.number kind)⟩
  | .text value => ⟨some value, .present, false, false, some (.text value)⟩

/-- A part of a document. A foreign part has a type that this library does not know; it is taken
for what its place asks for, or for nothing. -/
inductive Datum
  | scalar (value : Scalar)
  | list (items : List Datum)
  | mapping (fields : List (Datum × Datum))
  | foreign (value : Datum)
  deriving Repr, Inhabited

namespace Datum

/-! ## From JSON -/

/-- The kind of a JSON number. -/
def kindOf : Json.Number → NumberKind
  | .integer value => if value < 0 then .negative else .natural value.toNat
  | .decimal _ _ _ => .fractional

mutual

/-- The data of a JSON value. -/
def ofJson : Json → Datum
  | .null => .scalar (.ofPlain .null)
  | .bool _ => .scalar (.ofPlain .flag)
  | .number value => .scalar (.ofPlain (.number (kindOf value)))
  | .text value => .scalar (.ofPlain (.text value))
  | .array items => .list (ofJsonItems items)
  | .object fields => .mapping (ofJsonFields fields)

/-- The data of JSON values. -/
def ofJsonItems : List Json → List Datum
  | [] => []
  | item :: rest => ofJson item :: ofJsonItems rest

/-- The data of the fields of a JSON object. -/
def ofJsonFields : List (Text × Json) → List (Datum × Datum)
  | [] => []
  | (name, value) :: rest =>
    (.scalar (.ofPlain (.text name)), ofJson value) :: ofJsonFields rest

end

/-! ## From YAML -/

/-- The words for nothing. -/
def nullWords : List Text := ["null", "Null", "NULL", "~"]

/-- The words for truth values. -/
def flagWords : List Text := ["true", "True", "TRUE", "false", "False", "FALSE"]

/-- What a text is that is written without quotes and without a tag. -/
def resolve (text : Text) : Option Plain :=
  if text.isEmpty || nullWords.contains text then some .null
  else if flagWords.contains text then some .flag
  else
    match Yaml.readNumber text with
    | .number kind => some (.number kind)
    | .refused => none
    | .other => some (.text text)

/-- The number that a text was read as, if it was. -/
def numberOf? : Yaml.NumberReading → Option Plain
  | .number kind => some (.number kind)
  | .refused | .other => none

/-- The tag of a type that YAML defines. -/
def coreTag (name : String) : Yaml.Tag := Yaml.Tag.ofText ("tag:yaml.org,2002:" ++ name.toList)

/-- Is the tag one of the document's own types? -/
def isOwnTag (tag : Yaml.Tag) : Bool := tag.head? = some 0x21

/-- What a scalar is that is written without a tag. -/
def resolveUntagged (style : Yaml.ScalarStyle) (text : Text) : Option Plain :=
  if style = .plain then resolve text else some (.text text)

/-- What a scalar with a tag is, if its text suits the tag. -/
def resolveTagged (style : Yaml.ScalarStyle) (tag : Yaml.Tag) (text : Text) : Option Plain :=
  if tag = coreTag "bool" then
    if flagWords.contains text then some .flag else none
  else if tag = coreTag "null" then
    if nullWords.contains text then some .null else none
  else if tag = coreTag "int" then
    numberOf? (Yaml.readInteger text)
  else if tag = coreTag "float" then
    numberOf? (Yaml.readFloat text)
  else if isOwnTag tag then resolveUntagged style text
  else some (.text text)

/-- What a scalar says where something optional is asked for; only one without quotes can say
anything but that it is there. -/
def presenceOf (style : Yaml.ScalarStyle) (tag : Option Yaml.Tag) (text : Text) : Presence :=
  let isNull := nullWords.contains text
  if style ≠ .plain then .present
  else
    match tag with
    | none => if text.isEmpty || isNull then .missing else .present
    | some tag =>
      if tag ≠ coreTag "null" then .present
      else if isNull then .missing
      else .contradictory

/-- What a YAML scalar can be taken for. -/
def ofScalar (style : Yaml.ScalarStyle) (tag : Option Yaml.Tag) (text : Text) : Scalar where
  text? := some text
  presence := presenceOf style tag text
  isVacant := style = .plain && text.isEmpty
  isFlag :=
    flagWords.contains text
      && (style = .plain || (style = .literal && tag = some (coreTag "bool")))
  plain? :=
    match tag with
    | none => resolveUntagged style text
    | some tag => resolveTagged style tag text

/-- The part, marked as foreign if its tag is one of the document's own. -/
def tagged (tag : Option Yaml.Tag) (value : Datum) : Datum :=
  if tag.any fun tag => isOwnTag tag && tag.isText then .foreign value else value

mutual

/-- The data of a YAML node. -/
def ofNode : Yaml.Node → Datum
  | .scalar style tag text => tagged tag (.scalar (ofScalar style tag text))
  | .sequence tag items => tagged tag (.list (ofNodes items))
  | .mapping tag fields => tagged tag (.mapping (ofFields fields))

/-- The data of YAML nodes. -/
def ofNodes : List Yaml.Node → List Datum
  | [] => []
  | item :: rest => ofNode item :: ofNodes rest

/-- The data of the fields of a YAML mapping. -/
def ofFields : List (Yaml.Node × Yaml.Node) → List (Datum × Datum)
  | [] => []
  | (key, value) :: rest => (ofNode key, ofNode value) :: ofFields rest

end

/-! ## Settling -/

mutual

/-- The part as it is where nothing particular is asked for: every scalar is one thing only. -/
def settled? : Datum → Option Datum
  | .scalar value => value.plain?.map fun plain => .scalar (.ofPlain plain)
  | .list items => (settledItems? items).map .list
  | .mapping fields => (settledFields? fields).map .mapping
  | .foreign _ => none

/-- Settled items. -/
def settledItems? : List Datum → Option (List Datum)
  | [] => some []
  | item :: rest => do
    let item ← settled? item
    let rest ← settledItems? rest
    some (item :: rest)

/-- Settled fields. -/
def settledFields? : List (Datum × Datum) → Option (List (Datum × Datum))
  | [] => some []
  | (key, value) :: rest => do
    let key ← settled? key
    let value ← settled? value
    let rest ← settledFields? rest
    some ((key, value) :: rest)

end

mutual

/-- Are all keys texts, in the part and inside it? -/
def hasTextKeys : Datum → Bool
  | .scalar _ => true
  | .list items => haveTextKeys items
  | .mapping fields => fieldsHaveTextKeys fields
  | .foreign value => hasTextKeys value

/-- Are all keys in the items texts? -/
def haveTextKeys : List Datum → Bool
  | [] => true
  | item :: rest => hasTextKeys item && haveTextKeys rest

/-- Are all keys in the fields texts, and their own ones too? -/
def fieldsHaveTextKeys : List (Datum × Datum) → Bool
  | [] => true
  | (.scalar key, value) :: rest =>
    key.text?.isSome && hasTextKeys value && fieldsHaveTextKeys rest
  | _ :: _ => false

end

/-! ## Depth -/

mutual

/-- How deep the lists and mappings of the part are nested. -/
def depth : Datum → Nat
  | .scalar _ => 0
  | .list items => 1 + itemsDepth items
  | .mapping fields => 1 + fieldsDepth fields
  | .foreign value => depth value

/-- How deep the items are nested. -/
def itemsDepth : List Datum → Nat
  | [] => 0
  | item :: rest => max (depth item) (itemsDepth rest)

/-- How deep the values of the fields are nested. -/
def fieldsDepth : List (Datum × Datum) → Nat
  | [] => 0
  | (_, value) :: rest => max (depth value) (fieldsDepth rest)

end

end Datum

end ServiceScaffold.OpenApi
