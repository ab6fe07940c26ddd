import ServiceScaffold.Text.Hidden

/-!
# Quoted texts

How a text is shown inside a message: between double quotes, with quotes, backslashes, line ends
and hidden characters spelled by escapes, so that the message stays on one line and shows what the
text holds.
-/

namespace ServiceScaffold.Text

/-- The escape of a hidden character: its code in lower-case hexadecimal digits. -/
def codeEscape (c : Char) : Text :=
  ['\\', 'u', '\x7b'] ++ Nat.toDigits 16 c.toNat ++ ['\x7d']

/-- One character of a quoted text. -/
def quotedChar (c : Char) : Text :=
  if c = '"' then ['\\', '"']
  else if c = '\\' then ['\\', '\\']
  else if c = '\t' then ['\\', 't']
  else if c = '\n' then ['\\', 'n']
  else if c = '\r' then ['\\', 'r']
  else if c = '\x00' then ['\\', '0']
  else if isHidden c then codeEscape c
  else [c]

/-- The text between double quotes. -/
def quoted (text : Text) : Text :=
  ['"'] ++ text.flatMap quotedChar ++ ['"']

/-- A list of texts, each quoted, in brackets. -/
def quotedList (texts : List Text) : Text :=
  ['['] ++ List.intercalate ", " (texts.map quoted) ++ [']']

end ServiceScaffold.Text
