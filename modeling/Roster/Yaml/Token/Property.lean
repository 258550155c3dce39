import Roster.Yaml.Error
import Roster.Yaml.Token.LineBreak

/-!
# Anchors, aliases, tags and directives

The tokens that are names. A tag is a handle with a suffix; URIs in tags and
directives may hold bytes written with a percent sign, which have to be UTF-8.
-/

namespace Roster.Yaml

namespace Token

/-- Fails unless the next character lies in a class. -/
def require (inClass : Char -> Bool) (context : Context) (since : Mark) (what : Expected)
    (cursor : Cursor) : Except Error Unit :=
  if inClass cursor.peek then .ok ()
  else .error (.lexicalIn context since (.expected what cursor.peek) cursor.mark)

/-- Reads the name of an anchor or an alias behind its indicator. -/
def anchorName (context : Context) (start : Cursor) : Except Error (String × Cursor) := do
  let (name, behind) := start.advance.takeWhile isAnchorCharacter
  if name.isEmpty || !endsAnchor behind.peek then
    .error (.lexicalIn context start.mark (.expected .wordCharacter behind.peek) behind.mark)
  else return (String.ofList name, behind)

/-- Reads the bytes of a run of percent escapes. -/
def uriBytes (context : Context) (since : Mark) :
    Nat -> Cursor -> Except Error (List UInt8 × Cursor)
  | 0, cursor => .ok ([], cursor)
  | fuel + 1, cursor =>
    if cursor.peek != '%' then .ok ([], cursor)
    else do
      let digits := cursor.advance
      let fail (found : Char) : Except Error (List UInt8 × Cursor) :=
        .error (.lexicalIn (.uriEscape context) since (.expected .uriEscape found) digits.mark)
      if !isHexDigit (digits.peekAt 0) then fail (digits.peekAt 0)
      else if !isHexDigit (digits.peekAt 1) then fail (digits.peekAt 1)
      else
        let byte := numberOfDigits 16 [digits.peekAt 0, digits.peekAt 1]
        let (others, behind) <- uriBytes context since fuel (digits.skip 2)
        return (UInt8.ofNat byte :: others, behind)

/-- Whether a character may stand in a URI as it is. A number sign may since
version 1.2. -/
def inUri (version : Version) (c : Char) : Bool :=
  isUriCharacter c || (version == .v12 && c == '#')

/-- Reads the parts of a URI, plain runs and runs of escapes in turn. -/
def uriParts (version : Version) (context : Context) (since : Mark) :
    Nat -> Cursor -> Except Error (List Char × Cursor)
  | 0, cursor => .ok ([], cursor)
  | fuel + 1, cursor => do
    let (run, behind) := cursor.takeWhile (inUri version)
    if behind.peek != '%' then return (run, behind)
    else
      let (bytes, next) <- uriBytes context since behind.rest.length behind
      match Text.Utf8.decode bytes with
      | .error fault =>
        .error (.lexicalIn (.uriEscape context) since (.escapedBytes fault) behind.mark)
      | .ok text =>
        let (others, final) <- uriParts version context since fuel next
        return (run ++ text ++ others, final)

/-- Reads a URI, which has at least one character or escape. -/
def uri (version : Version) (context : Context) (since : Mark) (cursor : Cursor) :
    Except Error (String × Cursor) :=
  if inUri version cursor.peek || cursor.peek == '%' then do
    let (text, behind) <- uriParts version context since cursor.rest.length cursor
    return (String.ofList text, behind)
  else .error (.lexicalIn (.uri context) since (.expected .uri cursor.peek) cursor.mark)

/-- Reads a tag handle: one exclamation mark in front of a space, else two with a
possibly empty name between them. -/
def handle (context : Context) (since : Mark) (cursor : Cursor) :
    Except Error (String × Cursor) := do
  if cursor.peek != '!' then
    .error (.lexicalIn (.handle context) since (.expected .exclamationMark cursor.peek) cursor.mark)
  else if cursor.peekAt 1 == ' ' then return ("!", cursor.advance)
  else
    let (name, behind) := cursor.advance.takeWhile isHandleCharacter
    if behind.peek != '!' then
      .error (.lexicalIn (.handle context) since (.handleNotClosed behind.peek) behind.mark)
    else return (String.ofList ('!' :: name ++ ['!']), behind.advance)

/-- Reads a tag that begins with an exclamation mark. Behind a second mark right
after it the tag is read as if it began there, but its short handle has both. It is
verbatim, a lone mark, or a handle with a suffix; a further mark in the same word
shows that the handle is a named one. -/
def tag (version : Version) (start : Cursor) : Except Error (TokenKind × Cursor) := do
  let doubled := start.peekAt 1 == '!'
  let shortHandle := if doubled then "!!" else "!"
  let mark := if doubled then start.advance else start
  let (kind, behind) <-
    if mark.peekAt 1 == '<' then do
      let (suffix, behind) <- uri version .tag start.mark (mark.skip 2)
      if behind.peek != '>' then
        .error (.lexicalIn .verbatimTag start.mark (.verbatimTagNotClosed behind.peek) behind.mark)
      else pure (TokenKind.tag none suffix, behind.advance)
    else if endsIndicator (mark.peekAt 1) then pure (TokenKind.tag none "!", mark.advance)
    else do
      let (word, _) := mark.advance.takeWhile fun c => !isSpaceOrEnd c
      let (name, behind) <-
        if word.contains '!' then handle .tag start.mark mark
        else pure (shortHandle, mark.advance)
      let (suffix, final) <- uri version .tag start.mark behind
      pure (TokenKind.tag (some name) suffix, final)
  require isSpaceOrEnd .tag start.mark .space behind
  return (kind, behind)

/-- The number of digits a version number may have, leading zeros included. -/
def digitLimit : Nat := 4300

/-- Reads one number of a version. -/
def versionNumber (since : Mark) (cursor : Cursor) : Except Error (Nat × Cursor) := do
  require Char.isDigit .directive since .digit cursor
  let (digits, behind) := cursor.takeWhile Char.isDigit
  if digits.length > digitLimit then .error (.tooManyDigits digits.length)
  else return (numberOfDigits 10 digits, behind)

/-- Reads the value of a version directive. -/
def versionDirective (since : Mark) (cursor : Cursor) : Except Error (Directive × Cursor) := do
  let (major, behindMajor) <- versionNumber since (cursor.skipWhile (· == ' '))
  require (· == '.') .directive since .digitOrPoint behindMajor
  let (minor, behindMinor) <- versionNumber since behindMajor.advance
  require isSpaceOrEnd .directive since .digitOrPoint behindMinor
  return (.version major minor, behindMinor)

/-- Reads the value of a tag directive. -/
def tagDirective (version : Version) (since : Mark) (cursor : Cursor) :
    Except Error (Directive × Cursor) := do
  let (name, behindName) <- handle .directive since (cursor.skipWhile (· == ' '))
  require (· == ' ') .directive since .space behindName
  let (expansion, behind) <- uri version .directive since (behindName.skipWhile (· == ' '))
  require isSpaceOrEnd .directive since .space behind
  return (.tag name expansion, behind)

/-- Reads a directive up to the end of its line. The second cursor of the result
stands behind the line, the mark where the directive itself ends. -/
def directive (version : Version) (start : Cursor) :
    Except Error (Directive × Mark × Cursor) := do
  let (name, behindName) := start.advance.takeWhile isDirectiveNameCharacter
  if name.isEmpty || !isSpaceOrEnd behindName.peek then
    .error (.lexicalIn .directive start.mark (.expected .wordCharacter behindName.peek)
      behindName.mark)
  else
    let (directive, finish, behind) <-
      if name == "YAML".toList then do
        let (directive, behind) <- versionDirective start.mark behindName
        pure (directive, behind.mark, behind)
      else if name == "TAG".toList then do
        let (directive, behind) <- tagDirective version start.mark behindName
        pure (directive, behind.mark, behind)
      else
        pure (Directive.other (String.ofList name), behindName.mark,
          behindName.skipWhile fun c => !endsContent c)
    let final := behind.skipToLineEnd
    require isBreakOrEnd .directive start.mark .commentOrBreak final
    return (directive, finish, final.lineBreak.2)

end Token

end Roster.Yaml
