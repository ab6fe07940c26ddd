import ServiceScaffold.Text.Basic

/-!
# TOML tables

The values of a settings file and the rules by which its statements make up one table. A statement
may name a table by a path of keys and so create the tables above it; how a table came to be decides
which statements may still add to it.

Of numbers, truth values and times only the kind is kept, because no setting is one.
-/

namespace ServiceScaffold.Toml

/-- How a table came to be. -/
inductive Origin
  /-- By a header of its own, or as the whole document. -/
  | declared
  /-- By the header of a table inside it. -/
  | implied
  /-- By a key with dots. -/
  | dotted
  /-- By a value in braces. -/
  | inlined
  deriving DecidableEq, Repr

/-- A value. -/
inductive Value
  | text (value : Text)
  /-- A number, and whether it fits into what the library has for numbers. -/
  | number (fits : Bool)
  | flag
  | time
  | array (items : List Value)
  /-- The tables of one double header, and how each of them came to be. -/
  | tables (items : List (Origin × List (Text × Value)))
  | table (origin : Origin) (fields : List (Text × Value))
  deriving Repr, Inhabited

mutual

/-- Fit all numbers in the value? -/
def Value.fits : Value → Bool
  | .number fits => fits
  | .text _ | .flag | .time => true
  | .array items => Value.itemsFit items
  | .tables items => Value.tablesFit items
  | .table _ fields => Value.fieldsFit fields

/-- Fit all numbers in the items? -/
def Value.itemsFit : List Value → Bool
  | [] => true
  | item :: rest => item.fits && Value.itemsFit rest

/-- Fit all numbers in the tables of a double header? -/
def Value.tablesFit : List (Origin × List (Text × Value)) → Bool
  | [] => true
  | (_, fields) :: rest => Value.fieldsFit fields && Value.tablesFit rest

/-- Fit all numbers in the fields? -/
def Value.fieldsFit : List (Text × Value) → Bool
  | [] => true
  | (_, value) :: rest => value.fits && Value.fieldsFit rest

end

/-- A table: how it came to be, and its fields in the order of their statements. -/
structure Table where
  origin : Origin
  fields : List (Text × Value)
  deriving Repr

/-- A statement of a document. -/
inductive Statement
  | pair (path : List Text) (value : Value)
  | header (path : List Text)
  | doubleHeader (path : List Text)
  deriving Repr

namespace Table

/-- A table without fields. -/
def empty (origin : Origin) : Table := ⟨origin, []⟩

/-- The value of a field. -/
def get? (table : Table) (key : Text) : Option Value := table.fields.lookup key

/-- The fields with one of them replaced, or added at the end. -/
def putField (key : Text) (value : Value) : List (Text × Value) → List (Text × Value)
  | [] => [(key, value)]
  | (other, old) :: rest =>
    if other = key then (key, value) :: rest else (other, old) :: putField key value rest

/-- The table with a field replaced, or added at the end. -/
def put (table : Table) (key : Text) (value : Value) : Table :=
  { table with fields := putField key value table.fields }

/-- The value that the table is. -/
def value (table : Table) : Value := .table table.origin table.fields

/-- May the path of a statement lead through a table of this origin? A key with dots leads only
through tables that no header and no braces have made. -/
def isOpen (dotted : Bool) : Origin → Bool
  | .inlined => false
  | .declared => !dotted
  | .implied | .dotted => true

/-- Changes the table that a path leads to. Tables that are missing on the way are created; of the
tables of a double header the last one is entered. -/
def change (dotted : Bool) (f : Table → Option Table) : List Text → Table → Option Table
  | [], table => f table
  | key :: path, table =>
    match table.get? key with
    | none => do
      let inner ← change dotted f path (empty (if dotted then .dotted else .implied))
      some (table.put key inner.value)
    | some (.table origin fields) =>
      if isOpen dotted origin then do
        let inner ← change dotted f path ⟨origin, fields⟩
        some (table.put key inner.value)
      else none
    | some (.tables items) =>
      match items.getLast? with
      | some (origin, fields) => do
        let inner ← change dotted f path ⟨origin, fields⟩
        some (table.put key (.tables (items.dropLast ++ [(inner.origin, inner.fields)])))
      | none => none
    | some _ => none

/-- The table with one more field. A key with dots adds only to tables that no header and no braces
have made. -/
def add (dotted : Bool) (key : Text) (value : Value) (table : Table) : Option Table :=
  if (dotted && (table.origin = .declared || table.origin = .inlined))
      || (table.get? key).isSome then none
  else some (table.put key value)

/-- The table with a value at the end of a path of keys. -/
def addPair (path : List Text) (value : Value) (table : Table) : Option Table :=
  match path.getLast? with
  | some key =>
    let above := path.dropLast
    change true (add (!above.isEmpty) key value) above table
  | none => none

/-- The table with a table declared in it; it may be there already only by implication. -/
def declare (key : Text) (table : Table) : Option Table :=
  match table.get? key with
  | none => some (table.put key (.table .declared []))
  | some (.table .implied fields) => some (table.put key (.table .declared fields))
  | some _ => none

/-- The table with one more table of a double header. -/
def declareNext (key : Text) (table : Table) : Option Table :=
  match table.get? key with
  | none => some (table.put key (.tables [(.declared, [])]))
  | some (.tables items) => some (table.put key (.tables (items ++ [(.declared, [])])))
  | some _ => none

/-- The document with a header. -/
def addHeader (declaration : Text → Table → Option Table) (path : List Text) (table : Table) :
    Option Table :=
  match path.getLast? with
  | some key => change false (declaration key) path.dropLast table
  | none => none

/-- The document after its statements; `place` is the path of the last header. -/
def build : List Text → List Statement → Table → Option Table
  | _, [], table => some table
  | place, .pair path value :: rest, table => do
    build place rest (← change false (addPair path value) place table)
  | _, .header path :: rest, table => do
    build path rest (← addHeader declare path table)
  | _, .doubleHeader path :: rest, table => do
    build path rest (← addHeader declareNext path table)

/-- The document that statements make up. -/
def ofStatements? (statements : List Statement) : Option Table :=
  build [] statements (empty .declared)

/-- The table in braces that pairs make up. -/
def ofPairs? (pairs : List (List Text × Value)) : Option Table :=
  pairs.foldlM (fun table pair => addPair pair.1 pair.2 table) (empty .inlined)

end Table

end ServiceScaffold.Toml
