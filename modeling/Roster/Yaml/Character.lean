/-!
# Character classes of YAML

The classes that decide where a token ends. The end of a text shows as the
character NUL, which no readable text contains; each class says for itself
whether it includes the end.
-/

namespace Roster.Yaml

/-- The character that shows at the end of a text. -/
def endOfText : Char := '\x00'

/-- The line breaks. -/
def isBreak (c : Char) : Bool :=
  c == '\n' || c == '\r' || c == '\x85' || c == '\u2028' || c == '\u2029'

/-- A line break or the end of the text. -/
def isBreakOrEnd (c : Char) : Bool :=
  isBreak c || c == endOfText

/-- Space and tab. -/
def isSpaceOrTab (c : Char) : Bool :=
  c == ' ' || c == '\t'

/-- A space, a line break or the end. A tab is not in the class. -/
def isSpaceOrEnd (c : Char) : Bool :=
  isBreakOrEnd c || c == ' '

/-- A space, a tab, a line break or the end. -/
def isSeparation (c : Char) : Bool :=
  isSpaceOrEnd c || c == '\t'

/-- The characters at which a comment or a line of a block scalar ends. The
Unicode line and paragraph separators are not among them. -/
def endsContent (c : Char) : Bool :=
  c == '\n' || c == endOfText || c == '\r' || c == '\x85'

/-- The characters that set off an indicator: those that end content, space and tab. -/
def endsIndicator (c : Char) : Bool :=
  endsContent c || isSpaceOrTab c

/-- The characters a text may contain at all. -/
def isReadable (c : Char) : Bool :=
  let code := c.toNat
  c == '\t' || c == '\n' || c == '\r' || (0x20 <= code && code <= 0x7E) || code == 0x85 ||
    (0xA0 <= code && code <= 0xD7FF) || (0xE000 <= code && code <= 0xFFFD) || 0x10000 <= code

/-- The ASCII letters and digits. -/
def isWordCharacter (c : Char) : Bool :=
  c.isAlphanum

/-- The characters of a directive's name. -/
def isDirectiveNameCharacter (c : Char) : Bool :=
  isWordCharacter c || "-_:.".contains c

/-- The characters between the exclamation marks of a tag handle. -/
def isHandleCharacter (c : Char) : Bool :=
  isWordCharacter c || "-_".contains c

/-- The characters of a tag's suffix or prefix, the escape mark aside. -/
def isUriCharacter (c : Char) : Bool :=
  isWordCharacter c || "-;/?:@&=+$,_.!~*'()[]".contains c

/-- The characters of the name of an anchor: all visible ones but the flow
indicators and the byte order mark. -/
def isAnchorCharacter (c : Char) : Bool :=
  let code := c.toNat
  ((0x21 <= code && code <= 0x7E) || (0xA0 <= code && code <= 0xD7FF) ||
    (0xE000 <= code && code <= 0xFFFD && code != 0xFEFF) || 0x10000 <= code) &&
    !(c == ',' || c == '[' || c == ']' || c == '\x7b' || c == '\x7d')

/-- The characters that may stand right behind the name of an anchor. -/
def endsAnchor (c : Char) : Bool :=
  isSeparation c || c == '\x7b' || c == '\x7d' || "?:,[]%@`".contains c

/-- Hexadecimal digits of either case. -/
def isHexDigit (c : Char) : Bool :=
  c.isDigit || ('a' <= c && c <= 'f') || ('A' <= c && c <= 'F')

/-- The value of a hexadecimal digit. -/
def hexDigitValue (c : Char) : Nat :=
  if c.isDigit then c.toNat - 0x30
  else if 'a' <= c then c.toNat - 0x61 + 10
  else c.toNat - 0x41 + 10

/-- The number written by digits in a base, leading digit first. -/
def numberOfDigits (base : Nat) (digits : List Char) : Nat :=
  digits.foldl (fun value digit => value * base + hexDigitValue digit) 0

end Roster.Yaml
