import Roster.Yaml.Mark

/-!
# Line breaks and what follows them

Every multi-line token is put together from lines. This module reads the breaks
between them: a break counts as a newline except for the Unicode line and
paragraph separators, which stand for themselves.
-/

namespace Roster.Yaml

namespace Cursor

/-- The text a break in front stands for, and the cursor behind it. -/
def lineBreak (cursor : Cursor) : List Char × Cursor :=
  let c := cursor.peek
  if c == '\r' && cursor.peekAt 1 == '\n' then (['\n'], cursor.skip 2)
  else if c == '\r' || c == '\n' || c == '\x85' then (['\n'], cursor.advance)
  else if c == '\u2028' || c == '\u2029' then ([c], cursor.advance)
  else ([], cursor)

/-- The cursor behind a comment up to the end of its line, if one is in front. -/
def skipComment (cursor : Cursor) : Cursor :=
  if cursor.peek == '#' then cursor.skipWhile fun c => !endsContent c else cursor

/-- The cursor behind spaces and a comment. -/
def skipToLineEnd (cursor : Cursor) : Cursor :=
  (cursor.skipWhile (· == ' ')).skipComment

end Cursor

/-- How the break between two lines shows in folded text: a newline becomes a
space if no blank line follows it and vanishes otherwise. -/
def folded (lineBreak blankLines : List Char) : List Char :=
  if lineBreak != ['\n'] then lineBreak ++ blankLines
  else if blankLines.isEmpty then [' ']
  else blankLines

end Roster.Yaml
