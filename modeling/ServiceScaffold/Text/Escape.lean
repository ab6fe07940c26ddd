import ServiceScaffold.Text.Digit

/-!
# Escapes inside quotes

An escape is a letter that stands for a character, or a letter and a fixed number of hexadecimal
digits that give a character's code. Which letters those are depends on the format.
-/

namespace ServiceScaffold.Text

/-- The escapes of a format. -/
structure Escapes where
  /-- The letters that stand for a character, and its code. -/
  letters : List (Char × Nat)
  /-- The letters before a code, and how many digits that has. -/
  codes : List (Char × Nat)

/-- Is the code that of a character, and not half of a surrogate pair? -/
def isCharCode (code : Nat) : Bool :=
  code < 0xd800 || (0xdfff < code && code ≤ 0x10ffff)

/-- The character of the escape that a text starts with, from its letter on, and how long the
escape is. -/
def Escapes.read (escapes : Escapes) : Text → Option (Char × Nat)
  | [] => none
  | letter :: rest =>
    match escapes.letters.lookup letter with
    | some code => some (Char.ofNat code, 1)
    | none => do
      let digits ← escapes.codes.lookup letter
      let code ← hexNumeral? digits 0 rest
      if isCharCode code then some (Char.ofNat code, 1 + digits) else none

end ServiceScaffold.Text
