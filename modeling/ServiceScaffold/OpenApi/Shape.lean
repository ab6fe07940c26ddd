import ServiceScaffold.OpenApi.Datum
import ServiceScaffold.Url.Basic

/-!
# Shapes of data

What a part of a document has to look like. `Shape.admits` decides whether it does. A record names
the members it knows; each of them may occur once at most, and it depends on the record what becomes
of members that it does not know. Shapes that hold themselves are told apart by name, and what the
names stand for comes from outside.
-/

namespace ServiceScaffold.OpenApi

/-- The parts of a document that may hold parts of their own kind. -/
inductive Part
  | schema
  | header
  | mediaType
  | pathItem
  deriving DecidableEq, Repr

/-- What becomes of the members of a record that it does not name. -/
inductive Others
  /-- They are kept, so they have to settle, with keys that are texts. -/
  | kept
  /-- They are passed over. -/
  | ignored
  deriving DecidableEq, Repr

/-- What a part of a document has to look like. -/
inductive Shape
  /-- Anything that settles, with keys that are texts. -/
  | anything
  /-- A text. -/
  | text
  /-- An absolute URL. -/
  | address
  /-- One of these texts; also as the only key of a mapping, to nothing. -/
  | word (choices : List Text)
  /-- A truth value. -/
  | flag
  /-- A number that is neither infinite nor undefined. -/
  | number
  /-- An integer that is not negative. -/
  | count
  /-- Nothing, or this. -/
  | optional (shape : Shape)
  /-- A list of these. -/
  | list (item : Shape)
  /-- A mapping whose keys are texts, to these. -/
  | table (entry : Shape)
  /-- A mapping with these members: their name, whether they have to be there, and their shape. -/
  | record (others : Others) (members : List (Text × Bool × Shape))
  /-- A list of the values of these members, in their order. -/
  | sequence (members : List (Text × Bool × Shape))
  /-- A mapping with a member that says which of these it is, or a list whose first item does. -/
  | variant (label : Text) (cases : List (Text × Shape))
  /-- What looks so once it is settled. -/
  | settled (shape : Shape)
  /-- What looks so in one way or the other. -/
  | either (first second : Shape)
  /-- A part that is described elsewhere. -/
  | part (part : Part)
  deriving Repr

/-- May the part be nothing? -/
def Shape.isOptional : Shape → Bool
  | .optional _ => true
  | _ => false

namespace Datum

/-- The part without the marks of foreign types. -/
def familiar : Datum → Datum
  | .foreign value => familiar value
  | value => value

/-- The text that a part is where a text is asked for. -/
def text? (datum : Datum) : Option Text :=
  match datum.familiar with
  | .scalar value => value.text?
  | _ => none

/-- What the part says where something optional is asked for. -/
def presence : Datum → Presence
  | .scalar value => value.presence
  | _ => .present

/-- The items of a list; a vacant scalar is a list without items. -/
def items? (datum : Datum) : Option (List Datum) :=
  match datum.familiar with
  | .list items => some items
  | .scalar value => if value.isVacant then some [] else none
  | _ => none

/-- The fields of a mapping under the names that its keys stand for, if all of them stand for one; a
vacant scalar is a mapping without fields. -/
def fieldsBy? (name? : Datum → Option Text) (datum : Datum) : Option (List (Text × Datum)) :=
  match datum.familiar with
  | .mapping fields => fields.mapM fun field => do some (← name? field.1, field.2)
  | .scalar value => if value.isVacant then some [] else none
  | _ => none

/-- The fields of a mapping whose keys are texts. -/
def fields? (datum : Datum) : Option (List (Text × Datum)) := datum.fieldsBy? text?

/-- The value of a field of a mapping. -/
def field? (datum : Datum) (name : Text) : Option Datum := do
  (← datum.fields?).lookup name

/-- Is the part a truth value? -/
def isFlag (datum : Datum) : Bool :=
  match datum.familiar with
  | .scalar value => value.isFlag
  | _ => false

/-- What the part is as a number, if it is one. -/
def kind? (datum : Datum) : Option NumberKind :=
  match datum with
  | .scalar ⟨_, _, _, _, some (.number kind)⟩ => some kind
  | _ => none

/-- The name that the part stands for among these: a text is the name, and a number that is no text
counts the names from zero. One that counts beyond them stands for the empty name. -/
def nameAmong? (names : List Text) (datum : Datum) : Option Text :=
  match datum.text?, datum.kind? with
  | some name, _ => some name
  | none, some (.natural place) => some (names.getD place [])
  | none, _ => none

/-- The word among these that the part is, or that is the only key of a mapping to nothing. -/
def wordAmong? (words : List Text) (datum : Datum) : Option Text :=
  match datum with
  | .mapping [(key, value)] => if value.presence = .missing then key.nameAmong? words else none
  | datum => datum.text?

/-- Does the part settle, with keys that are texts? -/
def settles (datum : Datum) : Bool := datum.settled?.any hasTextKeys

end Datum

/-- The name of the member that a key of a record stands for. Where the other members are kept only a
text is a key. -/
def Others.memberName? : Others → List Text → Datum → Option Text
  | .kept, _, key => key.text?
  | .ignored, names, key => key.nameAmong? names

namespace Shape

mutual

/-- Does the part look so? `look` decides about the parts that are described elsewhere. -/
def admitsWith (look : Part → Datum → Bool) : Shape → Datum → Bool
  | .anything, datum => datum.settles
  | .text, datum => datum.text?.isSome
  | .address, datum => datum.text?.any Url.isAbsolute
  | .word choices, datum => (datum.wordAmong? choices).any choices.contains
  | .flag, datum => datum.isFlag
  | .number, datum => datum.kind?.any (· ≠ .endless)
  | .count, datum =>
    match datum.kind? with
    | some (.natural _) => true
    | _ => false
  | .optional shape, datum =>
    match datum.presence with
    | .present => admitsWith look shape datum
    | .missing => true
    | .contradictory => false
  | .list item, datum =>
    match datum.items? with
    | some items => items.all (admitsWith look item)
    | none => false
  | .table entry, datum =>
    match datum.fields? with
    | some fields => fields.all fun field => admitsWith look entry field.2
    | none => false
  | .record others members, datum =>
    match datum.fieldsBy? (others.memberName? (members.map Prod.fst)) with
    | some fields =>
      membersAdmit look members fields
        && fields.all fun field =>
          others = .ignored || (members.lookup field.1).isSome || field.2.settles
    | none => false
  | .sequence members, datum =>
    match datum with
    | .list items => itemsAdmit look members items
    | _ => false
  | .variant label cases, datum =>
    let named (name : Datum) (datum : Datum) : Bool :=
      (name.nameAmong? (cases.map Prod.fst)).any fun name => caseAdmits look cases name datum
    match datum with
    | .mapping fields =>
      match fields.filter fun field => field.1.text? = some label with
      | [field] => named field.2 datum
      | _ => false
    | .list (name :: items) => named name (.list items)
    | _ => false
  | .settled shape, datum =>
    match datum.settled? with
    | some datum => admitsWith look shape datum
    | none => false
  | .either first second, datum =>
    admitsWith look first datum || admitsWith look second datum
  | .part name, datum => look name datum

/-- Does each member that has to be there occur, no member more than once, and do they look as they
have to? -/
def membersAdmit (look : Part → Datum → Bool) :
    List (Text × Bool × Shape) → List (Text × Datum) → Bool
  | [], _ => true
  | (name, required, shape) :: rest, fields =>
    (match fields.filter fun field => field.1 = name with
      | [] => !required
      | [field] => admitsWith look shape field.2
      | _ => false)
      && membersAdmit look rest fields

/-- Do the items look as the members have to, in their order? Of the members at the end those may be
left out that have a value without being given; one that may be nothing has none. -/
def itemsAdmit (look : Part → Datum → Bool) :
    List (Text × Bool × Shape) → List Datum → Bool
  | [], items => items.isEmpty
  | (_, required, shape) :: rest, [] =>
    !required && !shape.isOptional && itemsAdmit look rest []
  | (_, _, shape) :: rest, item :: items =>
    admitsWith look shape item && itemsAdmit look rest items

/-- Does the part look as the case of this name has to? -/
def caseAdmits (look : Part → Datum → Bool) :
    List (Text × Shape) → Text → Datum → Bool
  | [], _, _ => false
  | (label, shape) :: rest, name, datum =>
    if label = name then admitsWith look shape datum else caseAdmits look rest name datum

end

/-- Does the part look so? `describe` gives the shapes that are described elsewhere; they are entered
only so many times inside each other. -/
def admitsUpTo (describe : Part → Shape) : Nat → Shape → Datum → Bool
  | 0 => admitsWith fun _ _ => false
  | most + 1 => admitsWith fun part datum => admitsUpTo describe most (describe part) datum

/-- Does the part look so? A shape that is described elsewhere is entered once for each level of
nesting at most, and once for the part itself. -/
def admits (describe : Part → Shape) (shape : Shape) (datum : Datum) : Bool :=
  admitsUpTo describe (datum.depth + 1) shape datum

end Shape

end ServiceScaffold.OpenApi
