import ServiceScaffold.Text.Basic

/-!
# White space

The class of characters that separate words: the Unicode property White_Space. It is wider than
the class of the core library, which knows the ASCII ones only.
-/

namespace ServiceScaffold.Text

/-- Has the character the Unicode property White_Space? -/
def isBlank (c : Char) : Bool :=
  let n := c.toNat
  (9 ≤ n && n ≤ 13) || n = 0x20 || n = 0x85 || n = 0xa0 || n = 0x1680 ||
    (0x2000 ≤ n && n ≤ 0x200a) || n = 0x2028 || n = 0x2029 || n = 0x202f || n = 0x205f ||
    n = 0x3000

/-- The text without white space at its ends. -/
def trim (text : Text) : Text := trimBoth isBlank text

/-- Consists the text of white space only? -/
def isBlankText (text : Text) : Bool := text.all isBlank

end ServiceScaffold.Text
