import Roster.Text.Wide
import Roster.Yaml.Implicit

/-!
# How a text is written as a scalar

A text is written plain if that reads back as the same text, else between single
quotes, and between double quotes if it needs escapes, as any half in it does. The rules
are for texts without blank characters, so there is nothing to fold; only a long scalar
between double quotes is broken over lines.
-/

namespace Roster.Yaml

open Roster.Text (CodePoint Wide)

/-- The styles a text may be written in. -/
inductive ScalarStyle where
  | plain
  | singleQuoted
  | doubleQuoted
  deriving DecidableEq, Repr

namespace Presentation

/-- The column a line may reach before a scalar is broken. -/
def width : Nat := 4096

/-- The indentation of the further lines of a scalar. -/
def indentation : Nat := 4

/-- Whether a character can only be written as an escape, wherever it stands. -/
def needsEscape (c : Char) : Bool :=
  let code := c.toNat
  !((0x20 <= code && code <= 0x7E) || code == 0x85 || (0xA0 <= code && code <= 0xD7FF) ||
    (0xE000 <= code && code <= 0xFFFD) || 0x10000 <= code) || c == '\ufeff'

/-- The characters with which no plain scalar begins. -/
def isOpeningIndicator (c : Char) : Bool :=
  c == '\x7b' || c == '\x7d' || "#,[]&*!|>'\"%@`".contains c

/-- Whether a text begins like a document marker. -/
def startsLikeMarker (text : List Char) : Bool :=
  "---".toList.isPrefixOf text || "...".toList.isPrefixOf text

/-- Whether a text is a lone indicator of block structure. -/
def isLoneIndicator (text : List Char) : Bool :=
  text == ['?'] || text == [':'] || text == ['-']

/-- Whether a text can be written plain. -/
def allowsPlain (text : List Char) : Bool :=
  !startsLikeMarker text && !(text.head?.any isOpeningIndicator) && !isLoneIndicator text &&
    text.getLast? != some ':' && !text.any needsEscape && !Implicit.isImplicit text

/-- The style a text is written in. -/
def style (text : List Char) : ScalarStyle :=
  if allowsPlain text then .plain
  else if text.any needsEscape || text.contains '\'' then .doubleQuoted
  else .singleQuoted

/-- The escapes of one letter that are written. -/
def shortEscapes : List (Char × Char) :=
  [('\x00', '0'), ('\x07', 'a'), ('\x08', 'b'), ('\t', 't'), ('\n', 'n'), ('\x0b', 'v'),
    ('\x0c', 'f'), ('\r', 'r'), ('\x1b', 'e'), ('"', '"'), ('\\', '\\'), ('\x85', 'N'),
    ('\xa0', '_'), ('\u2028', 'L'), ('\u2029', 'P')]

/-- Whether a character is written as an escape between double quotes. -/
def isEscaped (c : Char) : Bool :=
  needsEscape c || c == '"' || c == '\\' || c == '\x85' || c == '\u2028' || c == '\u2029'

/-- The upper-case hexadecimal digits of a number, at least `width` of them. -/
def upperHexDigits (width value : Nat) : List Char :=
  (Text.hexDigits width value).map Char.toUpper

/-- A character as an escape. -/
def escape (c : Char) : List Char :=
  match shortEscapes.lookup c with
  | some letter => ['\\', letter]
  | none =>
    if c.toNat < 0x100 then '\\' :: 'x' :: upperHexDigits 2 c.toNat
    else if c.toNat < 0x10000 then '\\' :: 'u' :: upperHexDigits 4 c.toNat
    else '\\' :: 'U' :: upperHexDigits 8 c.toNat

/-- Whether a code point is written as an escape between double quotes. -/
def isEscapedCode : CodePoint -> Bool
  | .char c => isEscaped c
  | .half _ => true

/-- A code point as an escape. -/
def escapeCode : CodePoint -> List Char
  | .char c => escape c
  | .half found => '\\' :: 'u' :: upperHexDigits 4 found.code

/-- What breaks a scalar between double quotes without changing its text. -/
def softBreak : List Char :=
  '\\' :: '\n' :: List.replicate indentation ' '

/-- The content of a scalar between double quotes. Code points that are not escaped
are written in runs: `column` is where the line ended when the last run or escape
was written, `pending` the length of the run since then. A line that is too long
is broken behind an escape or in front of the first character of a run, but not
around the first character of the text and not in front of nothing. -/
def doubleQuotedContent (isFirst : Bool) (column pending : Nat) : List CodePoint -> List Char
  | [] => []
  | code :: rest =>
    let mayBreak := !isFirst && !rest.isEmpty
    if isEscapedCode code then
      let written := escapeCode code
      let behind := column + pending + written.length
      if mayBreak && behind > width + 1 then
        written ++ softBreak ++ doubleQuotedContent false indentation 0 rest
      else written ++ doubleQuotedContent false behind 0 rest
    else if mayBreak && pending == 0 && column > width then
      softBreak ++ code.shown ++ doubleQuotedContent false indentation 1 rest
    else code.shown ++ doubleQuotedContent false column (pending + 1) rest

/-- Code points between double quotes that begin at a column. -/
def doubleQuoted (column : Nat) (codes : List CodePoint) : List Char :=
  '"' :: doubleQuotedContent true (column + 1) 0 codes ++ ['"']

/-- A text as a scalar that begins at a column. -/
def scalar (column : Nat) (text : List Char) : List Char :=
  match style text with
  | .plain => text
  | .singleQuoted => '\'' :: text ++ ['\'']
  | .doubleQuoted => doubleQuoted column (text.map .char)

/-- A wide text as a scalar that begins at a column. -/
def wideScalar (column : Nat) : Wide -> List Char
  | .plain text => scalar column text.toList
  | .halved codes _ => doubleQuoted column codes

end Presentation

end Roster.Yaml
