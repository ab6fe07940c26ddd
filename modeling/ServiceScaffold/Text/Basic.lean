/-!
# Texts

A text is the list of its characters. Everything the library reads, names or writes is a text, so
that each of its functions recurses on the characters themselves. String literals stand for the
texts they spell.

The functions here look for one text inside another, cut a text at a separator, trim a class of
characters from both ends, and put texts in order.
-/

namespace ServiceScaffold

/-- A text is the list of its characters. -/
abbrev Text := List Char

instance coeString : Coe String (List Char) := ⟨String.toList⟩

namespace Text

/-- Does `needle` stand somewhere in the text? The empty text stands everywhere. -/
def occursIn (needle : Text) : Text → Bool
  | [] => needle.isEmpty
  | c :: rest => needle.isPrefixOf (c :: rest) || occursIn needle rest

/-- The text without its first occurrence of `needle`; a text without one stays as it is. -/
def removeFirst (needle : Text) : Text → Text
  | [] => []
  | c :: rest =>
    match needle.isPrefixOf? (c :: rest) with
    | some tail => tail
    | none => c :: removeFirst needle rest

/-- The text before its end `suffix`, if it ends so. -/
def beforeSuffix? (suffix text : Text) : Option Text :=
  suffix.isSuffixOf? text

/-- Drops the characters of a class from both ends. -/
def trimBoth (drops : Char → Bool) (text : Text) : Text :=
  ((text.dropWhile drops).reverse.dropWhile drops).reverse

/-- Splits a text at the first occurrence of a character, which belongs to neither part. -/
def splitFirst? (mark : Char) : Text → Option (Text × Text)
  | [] => none
  | c :: rest =>
    if c = mark then some ([], rest)
    else (splitFirst? mark rest).map fun parts => (c :: parts.1, parts.2)

/-- The decimal digits of a number. -/
def ofNat (n : Nat) : Text := Nat.toDigits 10 n

/-- The decimal digits of an integer, with a sign if it is negative. -/
def ofInt : Int → Text
  | .ofNat n => ofNat n
  | .negSucc n => '-' :: ofNat (n + 1)

/-- The number of bytes of a text in UTF-8. -/
def byteLength (text : Text) : Nat :=
  text.foldl (fun total c => total + c.utf8Size) 0

/-- Lower case of an ASCII letter; every other character stays. -/
def lowerAscii (text : Text) : Text := text.map Char.toLower

/-- Bytewise order of the UTF-8 forms, which is the order of the code points. -/
def ble : Text → Text → Bool
  | [], _ => true
  | _ :: _, [] => false
  | a :: as, b :: bs => a.toNat < b.toNat || (a = b && ble as bs)

/-- Puts a text into a list, before the first one that it does not come after. -/
def insertInOrder (text : Text) : List Text → List Text
  | [] => [text]
  | other :: rest =>
    if ble text other then text :: other :: rest else other :: insertInOrder text rest

/-- Texts in the order of their bytes. -/
def inOrder (texts : List Text) : List Text := texts.foldr insertInOrder []

end Text

end ServiceScaffold
