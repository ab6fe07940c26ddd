import ServiceScaffold.Text.Basic

/-!
# JSON values

A JSON value. The fields of an object are kept in their order and may repeat a name, because a
reader of documents has to see both; `sorted` gives the form in which documents are written: fields
by name, and of several of one name the last.
-/

namespace ServiceScaffold

/-- A number: an integer, or one that is only known up to double precision and is kept as it was
read, as digits and a power of ten. -/
inductive Json.Number
  | integer (value : Int)
  | decimal (negative : Bool) (digits : Nat) (exponent : Int)
  deriving DecidableEq, Repr, Inhabited

/-- A JSON value. -/
inductive Json
  | null
  | bool (value : Bool)
  | number (value : Json.Number)
  | text (value : Text)
  | array (items : List Json)
  | object (fields : List (Text × Json))
  deriving Repr, Inhabited

namespace Json

/-- Fields in the order of their names with one more; a field of the same name is replaced. -/
def insertField (name : Text) (value : Json) : List (Text × Json) → List (Text × Json)
  | [] => [(name, value)]
  | (other, old) :: rest =>
    if other = name then (name, value) :: rest
    else if Text.ble other name then (other, old) :: insertField name value rest
    else (name, value) :: (other, old) :: rest

/-- The object with these fields, ordered by name. -/
def ofFields (fields : List (Text × Json)) : Json :=
  .object (fields.foldl (fun sorted field => insertField field.1 field.2 sorted) [])

mutual

/-- The value with the fields of every object in the order of their names. -/
def sorted : Json → Json
  | .array items => .array (sortedItems items)
  | .object fields => ofFields (sortedFields fields)
  | .null => .null
  | .bool value => .bool value
  | .number value => .number value
  | .text value => .text value

/-- Items with the fields of every object in them ordered. -/
def sortedItems : List Json → List Json
  | [] => []
  | item :: rest => sorted item :: sortedItems rest

/-- Fields with the fields of every object in them ordered. -/
def sortedFields : List (Text × Json) → List (Text × Json)
  | [] => []
  | (name, value) :: rest => (name, sorted value) :: sortedFields rest

end

end Json

end ServiceScaffold
