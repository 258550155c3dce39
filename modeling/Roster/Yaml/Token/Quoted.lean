import Roster.Yaml.Error
import Roster.Yaml.Token.LineBreak

/-!
# Quoted scalars

Scalars between single or double quotes. Between single quotes only a doubled
quote is special; between double quotes a backslash begins an escape. In both, a
line break together with the white space around it is folded.
-/

namespace Roster.Yaml

open Roster.Text (CodePoint Wide)

/-- The two kinds of quotes. -/
inductive QuoteStyle where
  | single
  | double
  deriving DecidableEq, Repr

/-- The quote itself. -/
def QuoteStyle.mark : QuoteStyle -> Char
  | .single => '\''
  | .double => '"'

/-- The escapes of one letter and what they stand for. -/
def shortEscapes : List (Char × Char) :=
  [('0', '\x00'), ('a', '\x07'), ('b', '\x08'), ('t', '\t'), ('\t', '\t'), ('n', '\n'),
    ('v', '\x0b'), ('f', '\x0c'), ('r', '\r'), ('e', '\x1b'), (' ', ' '), ('"', '"'),
    ('/', '/'), ('\\', '\\'), ('N', '\x85'), ('_', '\xa0'), ('L', '\u2028'), ('P', '\u2029')]

/-- The escapes that give a code point, and how many digits follow each. -/
def codeEscapes : List (Char × Nat) :=
  [('x', 2), ('u', 4), ('U', 8)]

/-- The code point with a number, which may be a half. A number beyond the last one is
refused, in another way if it does not fit into 31 bits. -/
def codePoint (code : Nat) : Except Error CodePoint :=
  if code > 0x7FFFFFFF then .error .escapeTooLarge
  else if code > 0x10FFFF then .error .escapeOutOfRange
  else .ok (.ofCode code)

namespace Token

/-- Reads the blank lines behind a line break inside quotes. A document marker
must not stand there. -/
def quotedBreaks (since : Mark) : Nat -> Cursor -> Except Error (List Char × Cursor)
  | 0, cursor => .ok ([], cursor)
  | fuel + 1, cursor =>
    if cursor.atDocumentMarker then
      .error (.lexicalIn .quoted since .documentSeparator cursor.mark)
    else
      let behind := cursor.skipWhile isSpaceOrTab
      if isBreak behind.peek then do
        let (lineBreak, next) := behind.lineBreak
        let (others, final) <- quotedBreaks since fuel next
        return (lineBreak ++ others, final)
      else .ok ([], behind)

/-- Reads white space inside quotes, folding a line break in it. -/
def quotedSpace (since : Mark) (cursor : Cursor) : Except Error (List Char × Cursor) :=
  let (space, behind) := cursor.takeWhile isSpaceOrTab
  if behind.rest.isEmpty then .error (.lexicalIn .quoted since .endOfStream behind.mark)
  else if isBreak behind.peek then do
    let (lineBreak, next) := behind.lineBreak
    let (blankLines, final) <- quotedBreaks since next.rest.length next
    return (folded lineBreak blankLines, final)
  else .ok (space, behind)

/-- Reads an escape behind its backslash. -/
def escape (since : Mark) (cursor : Cursor) : Except Error (List CodePoint × Cursor) :=
  let c := cursor.peek
  match shortEscapes.lookup c, codeEscapes.lookup c with
  | some meaning, _ => .ok ([.char meaning], cursor.advance)
  | none, some count =>
    let digits := cursor.advance
    match (digits.rest ++ [endOfText]).take count |>.find? fun c => !isHexDigit c with
    | some found =>
      .error (.lexicalIn .doubleQuoted since (.expected (.escapeDigits count) found) digits.mark)
    | none => do
      let found <- codePoint (numberOfDigits 16 (digits.rest.take count))
      return ([found], digits.skip count)
  | none, none =>
    if isBreak c then do
      let (_, next) := cursor.lineBreak
      let (blankLines, final) <- quotedBreaks since next.rest.length next
      return (blankLines.map .char, final)
    else .error (.lexicalIn .doubleQuoted since (.unknownEscape c) cursor.mark)

/-- Reads the content of a quoted scalar and its closing quote. -/
def quotedContent (style : QuoteStyle) (since : Mark) :
    Nat -> Cursor -> Except Error (List CodePoint × Cursor)
  | 0, cursor => .ok ([], cursor)
  | fuel + 1, cursor => do
    let c := cursor.peek
    if c == style.mark && !(style == .single && cursor.peekAt 1 == c) then
      return ([], cursor.advance)
    else
      let (part, next) <-
        if c == style.mark then pure ([CodePoint.char c], cursor.skip 2)
        else if style == .double && c == '\\' then escape since cursor.advance
        else if isSpaceOrTab c || isBreakOrEnd c then do
          let (space, behind) <- quotedSpace since cursor
          pure (space.map CodePoint.char, behind)
        else pure ([CodePoint.char c], cursor.advance)
      let (others, final) <- quotedContent style since fuel next
      return (part ++ others, final)

/-- Reads a quoted scalar. -/
def quotedScalar (style : QuoteStyle) (start : Cursor) : Except Error (Wide × Cursor) := do
  let (codes, behind) <- quotedContent style start.mark (start.rest.length + 1) start.advance
  return (.ofCodes codes, behind)

end Token

end Roster.Yaml
