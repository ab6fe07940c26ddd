import ServiceScaffold.Service.Signature
import ServiceScaffold.Text.Blank

/-!
# Reading public methods out of a source

A source is scanned, not parsed. An occurrence is the word `public`, one blank, a name, white space
and a parameter list up to the next closing bracket. Occurrences are taken from left to right and
do not overlap. The constructor is dropped, and of several methods of one name the first is kept.

Of a parameter list only the names are read: one for each part between commas. The name is the
first word that is followed by `:`, `=` or `?`, or else the word at the end of the part, or else a
placeholder.
-/

namespace ServiceScaffold

/-- Can the character stand in a name? Names are of ASCII letters, digits and `_`. -/
def isWordChar (c : Char) : Bool := c.isAlphanum || c = '_'

/-- The name of the method that makes the class and is no route. -/
def constructorName : Text := "constructor"

/-- The name of a parameter that has no readable one. -/
def placeholderParameter : Text := "param"

/-- A public method as it stands in a source. -/
structure Occurrence where
  name : Text
  /-- What stands between the brackets. -/
  parameters : Text
  deriving DecidableEq, Repr

namespace Occurrence

/-- The word and the blank that an occurrence starts with. -/
def opening : Text := "public "

/-- The occurrence that the text starts with, and the text after it. -/
def atStart? (text : Text) : Option (Occurrence × Text) := do
  let afterOpening ← opening.isPrefixOf? text
  let name := afterOpening.takeWhile isWordChar
  if name.isEmpty then none
  else
    match (afterOpening.dropWhile isWordChar).dropWhile Text.isBlank with
    | '(' :: inner =>
      (Text.splitFirst? ')' inner).map fun parts => (⟨name, parts.1⟩, parts.2)
    | _ => none

/-- The occurrences from left to right. Each round of the fuel passes one character or one
occurrence, so the length of the text is enough. -/
def scan : Nat → Text → List Occurrence
  | 0, _ => []
  | _ + 1, [] => []
  | fuel + 1, c :: rest =>
    match atStart? (c :: rest) with
    | some (occurrence, after) => occurrence :: scan fuel after
    | none => scan fuel rest

/-- The occurrences of a source from left to right. -/
def all (source : Text) : List Occurrence := scan source.length source

end Occurrence

namespace Parameter

/-- Ends a character the name before it: `:`, `=` or `?`? -/
def isMark (c : Char) : Bool := c = ':' || c = '=' || c = '?'

/-- The ends of a text that start with a whole word; `inWord` says whether the character before
the text stood in a word. -/
def wordEnds (inWord : Bool) : Text → List Text
  | [] => []
  | c :: rest =>
    if isWordChar c && !inWord then (c :: rest) :: wordEnds true rest
    else wordEnds (isWordChar c) rest

/-- The words of a text: each run of word characters with what follows it. -/
def words (text : Text) : List (Text × Text) :=
  (wordEnds false text).map fun tail => (tail.takeWhile isWordChar, tail.dropWhile isWordChar)

/-- Follows a mark, after white space? -/
def marked (after : Text) : Bool :=
  match after.dropWhile Text.isBlank with
  | c :: _ => isMark c
  | [] => false

/-- The name of one parameter. -/
def name (segment : Text) : Text :=
  match (words segment).find? fun word => marked word.2 with
  | some word => word.1
  | none =>
    match (words segment).find? fun word => Text.isBlankText word.2 with
    | some word => word.1
    | none => placeholderParameter

/-- The names of a parameter list, one for each part between commas. -/
def names (list : Text) : List Text :=
  if (Text.trim list).isEmpty then [] else ((Text.trim list).splitOn ',').map name

end Parameter

namespace Occurrence

/-- The signature that an occurrence gives. -/
def signature (occurrence : Occurrence) : MethodSignature :=
  ⟨occurrence.name, Parameter.names occurrence.parameters⟩

end Occurrence

/-- The public methods of a source, in the order of their first occurrence. -/
def extractMethods (source : Text) : MethodMap :=
  MethodMap.ofList
    (((Occurrence.all source).filter fun occurrence =>
      occurrence.name ≠ constructorName).map Occurrence.signature)

end ServiceScaffold
