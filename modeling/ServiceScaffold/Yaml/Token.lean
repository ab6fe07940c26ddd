import ServiceScaffold.Yaml.Cursor

/-!
# Tokens of YAML

The tokens that a stream is cut into. Indentation is a matter of tokens as well: a block opens with
its own token and ends with one.
-/

namespace ServiceScaffold.Yaml

/-- How a scalar is written. -/
inductive ScalarStyle
  | plain
  | quoted
  | literal
  | folded
  deriving DecidableEq, Repr

/-- A tag as its bytes: escapes in it may spell what is no text. -/
abbrev Tag := List UInt8

/-- The tag that a text is. -/
def Tag.ofText (text : Text) : Tag := (String.ofList text).toUTF8.toList

/-- Is the tag a text? -/
def Tag.isText (tag : Tag) : Bool := (String.fromUTF8? ⟨tag.toArray⟩).isSome

/-- A token of a stream. -/
inductive Token
  | versionDirective (major minor : Nat)
  | tagDirective (handle : Text) (address : Tag)
  | documentStart
  | documentEnd
  | blockSequenceStart
  | blockMappingStart
  | blockEnd
  | flowSequenceStart
  | flowSequenceEnd
  | flowMappingStart
  | flowMappingEnd
  | blockEntry
  | flowEntry
  | key
  | value
  | alias (name : Text)
  | anchor (name : Text)
  /-- A tag; it has no handle if it is given in full. -/
  | tag (handle : Text) (suffix : Tag)
  | scalar (style : ScalarStyle) (text : Text)
  deriving DecidableEq, Repr

end ServiceScaffold.Yaml
