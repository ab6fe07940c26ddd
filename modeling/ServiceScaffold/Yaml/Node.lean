import ServiceScaffold.Yaml.Token

/-!
# Nodes of YAML

What a document says, references replaced by what they refer to. A scalar keeps how it was written
and its tag, because both decide what it stands for.
-/

namespace ServiceScaffold.Yaml

/-- A node of a document. -/
inductive Node
  | scalar (style : ScalarStyle) (tag : Option Tag) (text : Text)
  | sequence (tag : Option Tag) (items : List Node)
  | mapping (tag : Option Tag) (fields : List (Node × Node))
  deriving Repr, Inhabited

namespace Node

/-- What stands where nothing is written. -/
def blank : Node := .scalar .plain none []

end Node

/-- A node, and what it costs to walk through it. -/
structure Measured where
  node : Node
  /-- The scalars, the references, and the starts and ends of collections that it is written by. -/
  marks : Nat
  /-- How many references are met on a walk that enters all of them. -/
  repeats : Nat
  /-- How deep its collections are nested. -/
  depth : Nat
  deriving Repr, Inhabited

namespace Measured

/-- A scalar. -/
def scalar (style : ScalarStyle) (tag : Option Tag) (text : Text) : Measured :=
  ⟨.scalar style tag text, 1, 0, 0⟩

/-- What stands where nothing is written. -/
def blank : Measured := ⟨.blank, 1, 0, 0⟩

/-- The same node, met by a reference. -/
def referred (target : Measured) : Measured :=
  { target with marks := 1, repeats := target.repeats + 1 }

/-- A collection of these parts. -/
def around (node : Node) (parts : List Measured) : Measured where
  node := node
  marks := 2 + (parts.map marks).foldl Nat.add 0
  repeats := (parts.map repeats).foldl Nat.add 0
  depth := 1 + (parts.map depth).foldl max 0

/-- A sequence. -/
def sequence (tag : Option Tag) (items : List Measured) : Measured :=
  around (.sequence tag (items.map node)) items

/-- A mapping. -/
def mapping (tag : Option Tag) (fields : List (Measured × Measured)) : Measured :=
  around (.mapping tag (fields.map fun field => (field.1.node, field.2.node)))
    (fields.map Prod.fst ++ fields.map Prod.snd)

/-- How deep collections may be nested. -/
def deepest : Nat := 128

/-- How many references may be met for each of the marks. -/
def mostRepeats : Nat := 100

/-- Is the walk through the node short enough? -/
def isModest (measured : Measured) : Bool :=
  measured.depth ≤ deepest && measured.repeats ≤ mostRepeats * measured.marks

end Measured

end ServiceScaffold.Yaml
