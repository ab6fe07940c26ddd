/-!
# Kinds of numbers

What matters of a number in a document: whether it is an integer that can count something, and
whether it has a value at all.
-/

namespace ServiceScaffold

/-- A kind of numbers. -/
inductive NumberKind
  /-- An integer from zero on, of at most 64 bits. -/
  | natural (value : Nat)
  /-- An integer below zero, of at most 64 bits. -/
  | negative
  /-- Any other number in double precision. -/
  | fractional
  /-- Infinite, or not a number at all. -/
  | endless
  deriving DecidableEq, Repr

end ServiceScaffold
