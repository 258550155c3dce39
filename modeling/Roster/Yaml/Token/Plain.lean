import Roster.Yaml.Error
import Roster.Yaml.Token.LineBreak

/-!
# Plain scalars

Scalars without quotes. They end at an indicator, at a comment, or at a line
that is not indented enough; line breaks inside are folded.
-/

namespace Roster.Yaml

/-- The circumstances of a plain scalar: the rules in force, whether it lies in a
flow collection, and the least column of its further lines. -/
structure PlainSetting where
  version : Version
  inFlow : Bool
  least : Nat
  deriving DecidableEq, Repr

/-- The characters that begin or end something in a flow collection. -/
def isFlowIndicator (c : Char) : Bool :=
  c == ',' || c == '[' || c == ']' || c == '\x7b' || c == '\x7d'

/-- The characters that never begin a plain scalar by themselves. -/
def isIndicator (c : Char) : Bool :=
  isFlowIndicator c || "-?:#&*!|>'\"%@`".contains c

/-- Whether a plain scalar may begin with a character in front of another. -/
def beginsPlain (version : Version) (inFlow : Bool) (c next : Char) : Bool :=
  (!isSeparation c && !isIndicator c) ||
    (version == .v12 && c == ':' && inFlow && !isSpaceOrTab next) ||
    (!endsIndicator next && (c == '-' || (!inFlow && (c == '?' || c == ':'))))

/-- Whether a plain scalar goes on with a character in front of another. -/
def continuesPlain (version : Version) (inFlow : Bool) (c next : Char) : Bool :=
  (c == ':' && !endsIndicator next) || (c == '?' && version == .v12) ||
    !(endsIndicator c || c == ':' || (inFlow && (c == '?' || isFlowIndicator c)))

namespace Token

/-- Reads the characters of a plain scalar up to white space or an indicator. -/
def plainRun (version : Version) (inFlow : Bool) (mark : Mark) :
    List Char -> List Char × Cursor
  | [] => ([], { mark, rest := [] })
  | c :: rest =>
    if continuesPlain version inFlow c (rest.headD endOfText) then
      let (run, behind) := plainRun version inFlow (mark.after c) rest
      (c :: run, behind)
    else ([], { mark, rest := c :: rest })

/-- Reads blank lines and indentation inside a plain scalar. There is no result
if a document marker follows a break. -/
def plainBreaks : Nat -> Cursor -> Option (List Char) × Cursor
  | 0, cursor => (some [], cursor)
  | fuel + 1, cursor =>
    if cursor.peek == ' ' then plainBreaks fuel cursor.advance
    else if isBreak cursor.peek then
      let (lineBreak, next) := cursor.lineBreak
      if next.atDocumentMarker then (none, next)
      else
        let (others, final) := plainBreaks fuel next
        (others.map (lineBreak ++ ·), final)
    else (some [], cursor)

/-- White space inside a plain scalar: what it stands for, empty if the scalar
ends here, and whether it holds a line break. -/
structure PlainSpace where
  text : List Char
  hasBreak : Bool
  deriving DecidableEq, Repr

/-- Reads the white space behind a run of a plain scalar. -/
def plainSpace (cursor : Cursor) : PlainSpace × Cursor :=
  let (spaces, behind) := cursor.takeWhile (· == ' ')
  if isBreak behind.peek then
    let (lineBreak, next) := behind.lineBreak
    if next.atDocumentMarker then ({ text := [], hasBreak := true }, next)
    else
      match plainBreaks next.rest.length next with
      | (none, final) => ({ text := [], hasBreak := true }, final)
      | (some blank, final) => ({ text := folded lineBreak blank, hasBreak := true }, final)
  else ({ text := spaces, hasBreak := false }, behind)

/-- What is read of a plain scalar: its text, the mark behind it, the cursor
behind the white space after it, and whether that holds a line break. -/
structure PlainScalar where
  text : List Char
  finish : Mark
  behind : Cursor
  endsWithBreak : Bool
  deriving Repr

/-- Reads the runs of a plain scalar and the space between them. `space` is what
stands in front of the run that may follow. -/
def plainRuns (setting : PlainSetting) (space : PlainSpace) (finish : Mark) :
    Nat -> Cursor -> PlainScalar
  | 0, cursor => { text := [], finish, behind := cursor, endsWithBreak := space.hasBreak }
  | fuel + 1, cursor =>
    let stop : PlainScalar :=
      { text := [], finish, behind := cursor, endsWithBreak := space.hasBreak }
    if cursor.peek == '#' then stop
    else
      let (run, behind) := plainRun setting.version setting.inFlow cursor.mark cursor.rest
      if run.isEmpty then stop
      else
        let (next, final) := plainSpace behind
        if next.text.isEmpty || final.peek == '#' ||
            (!setting.inFlow && final.column < setting.least) then
          { text := space.text ++ run, finish := behind.mark, behind := final
            endsWithBreak := next.hasBreak }
        else
          let others := plainRuns setting next behind.mark fuel final
          { others with text := space.text ++ run ++ others.text }

/-- Reads a plain scalar. -/
def plainScalar (setting : PlainSetting) (start : Cursor) : PlainScalar :=
  plainRuns setting { text := [], hasBreak := false } start.mark start.rest.length start

end Token

end Roster.Yaml
