import ServiceScaffold.Url.Host

/-!
# Absolute URLs

Which texts are URLs that stand for themselves, without another one that they are relative to. Only
the scheme and what tells the host can be wrong; paths, queries and fragments are taken as they are.
-/

namespace ServiceScaffold.Url

/-- The text without blanks and controls around it, and without tabs and line ends. -/
def cleaned (text : Text) : Text :=
  (Text.trimBoth (fun c => c ≤ ' ') text).filter fun c => c ≠ '\t' && c ≠ '\n' && c ≠ '\r'

/-- May the character stand in a scheme behind its first letter? -/
def isSchemeChar (c : Char) : Bool := c.isAlphanum || c = '+' || c = '-' || c = '.'

/-- The scheme that a text starts with, and what stands behind its colon. -/
def scheme? (text : Text) : Option (Text × Text) :=
  if text.head?.any Char.isAlpha then
    match text.dropWhile isSchemeChar with
    | ':' :: rest => some (Text.lowerAscii (text.takeWhile isSchemeChar), rest)
    | _ => none
  else none

/-- The schemes that connect to a host. -/
def connectingSchemes : List Text := ["http", "https", "ws", "wss", "ftp"]

/-- A slash in either direction. -/
def isSlash (c : Char) : Bool := c = '/' || c = '\\'

/-- Does the character end the host? A backslash does so where it counts as a slash. -/
def endsHost (connecting : Bool) (c : Char) : Bool :=
  c = '/' || c = '?' || c = '#' || (connecting && c = '\\')

/-- Is the text the number of a channel of a host, or empty? A backslash ends it. -/
def isChannel (text : Text) : Bool :=
  let digits := text.takeWhile Char.isDigit
  Text.numeral digits < 65536 && (text.dropWhile Char.isDigit).head?.all (· = '\\')

/-- The host in front of a channel; inside brackets a colon belongs to it. -/
def hostBefore : Bool → Text → Text
  | _, [] => []
  | bracketed, c :: rest =>
    if c = ':' && !bracketed then []
    else c :: hostBefore (c = '[' || (bracketed && c ≠ ']')) rest

/-- Is the text a host, maybe with a channel behind it? Whether it has to be named depends on the
scheme, and on whether it stands behind a user. -/
def isHostAndChannel (connecting hasUser : Bool) (text : Text) : Bool :=
  let host := hostBefore false text
  let named := !host.isEmpty
  let fits := if connecting then isHost host else isOpaqueHost host
  match text.drop host.length with
  | _ :: channel => named && fits && isChannel channel
  | [] => fits && (named || !(connecting || hasUser))

/-- The text behind the last `@` of an authority and the user in front of that, if there is one. -/
def splitUser (authority : Text) : Option Text × Text :=
  if authority.contains '@' then
    let host := (authority.reverse.takeWhile (· ≠ '@')).reverse
    (some (authority.take (authority.length - host.length - 1)), host)
  else (none, authority)

/-- Does the text behind the slashes tell a host? An empty user may stand before nothing that ends
a host. -/
def tellsHost (connecting : Bool) (text : Text) : Bool :=
  let authority := text.takeWhile fun c => !endsHost connecting c
  match splitUser authority with
  | (none, host) => isHostAndChannel connecting false host
  | (some [], host) =>
    !(host.isEmpty && text.length ≠ authority.length) && isHostAndChannel connecting false host
  | (some user, host) => isHostAndChannel connecting (user ≠ [':']) host

/-- Is the text a drive of a disk? -/
def isDrive : Text → Bool
  | [letter, mark] => letter.isAlpha && (mark = ':' || mark = '|')
  | _ => false

/-- Does the text behind the scheme of files tell a file? Behind two slashes a host may stand. -/
def tellsFile : Text → Bool
  | first :: second :: rest =>
    if isSlash first && isSlash second then
      let host := rest.takeWhile fun c => !endsHost true c
      host.isEmpty || isDrive host || isHost host
    else true
  | _ => true

/-- Is the text an absolute URL? -/
def isAbsolute (text : Text) : Bool :=
  match scheme? (cleaned text) with
  | none => false
  | some (scheme, rest) =>
    if scheme = "file" then tellsFile rest
    else if connectingSchemes.contains scheme then tellsHost true (rest.dropWhile isSlash)
    else
      match rest with
      | '/' :: '/' :: rest => tellsHost false rest
      | _ => true

end ServiceScaffold.Url
