import Roster.Yaml.Error
import Roster.Yaml.Token.LineBreak

/-!
# Block scalars

Literal and folded scalars. The header says how the last line breaks are kept
and may fix the indentation, which otherwise is that of the first line with
content. Lines stop counting as content where the indentation stops.
-/

namespace Roster.Yaml

/-- Whether the line breaks of a block scalar are kept or folded. -/
inductive BlockStyle where
  | literal
  | folded
  deriving DecidableEq, Repr

/-- What becomes of the breaks that end a block scalar: all but the first are
dropped, all are dropped, or all are kept. -/
inductive Chomping where
  | clip
  | strip
  | keep
  deriving DecidableEq, Repr

/-- The header of a block scalar. -/
structure BlockHeader where
  chomping : Chomping
  increment : Option Nat
  deriving DecidableEq, Repr

namespace Token

/-- Reads a chomping indicator, if there is one. -/
def chompingIndicator (cursor : Cursor) : Option Chomping × Cursor :=
  if cursor.peek == '+' then (some .keep, cursor.advance)
  else if cursor.peek == '-' then (some .strip, cursor.advance)
  else (none, cursor)

/-- Reads an indentation indicator, if there is one. It must not be zero. -/
def indentationIndicator (since : Mark) (cursor : Cursor) :
    Except Error (Option Nat × Cursor) :=
  if cursor.peek == '0' then
    .error (.lexicalIn .blockScalar since .indentationIndicatorZero cursor.mark)
  else if cursor.peek.isDigit then .ok (some (hexDigitValue cursor.peek), cursor.advance)
  else .ok (none, cursor)

/-- Reads the indicators of a header, in either order, and the rest of its line. -/
def blockHeader (since : Mark) (cursor : Cursor) : Except Error (BlockHeader × Cursor) := do
  let (early, behindEarly) := chompingIndicator cursor
  let (increment, behindIncrement) <- indentationIndicator since behindEarly
  let (chomping, behind) :=
    if early.isSome || increment.isNone then (early, behindIncrement)
    else chompingIndicator behindIncrement
  let fail (what : Expected) (place : Cursor) : Except Error (BlockHeader × Cursor) :=
    .error (.lexicalIn .blockScalar since (.expected what place.peek) place.mark)
  if !isSpaceOrEnd behind.peek then fail .blockIndicators behind
  else
    let lineEnd := behind.skipToLineEnd
    if !isBreakOrEnd lineEnd.peek then fail .commentOrBreak lineEnd
    else return ({ chomping := chomping.getD .clip, increment }, lineEnd.lineBreak.2)

/-- The cursor behind the spaces in front of a column. -/
def skipIndentation (column : Nat) : Nat -> Cursor -> Cursor
  | 0, cursor => cursor
  | fuel + 1, cursor =>
    if cursor.column < column && cursor.peek == ' ' then
      skipIndentation column fuel cursor.advance
    else cursor

/-- Reads blank lines in front of a line with content: their breaks, the mark
behind the last of them, and the cursor at the content or at a lower column. -/
def blankLines (column : Nat) (finish : Mark) : Nat -> Cursor -> List Char × Mark × Cursor
  | 0, cursor => ([], finish, cursor)
  | fuel + 1, cursor =>
    let behind := skipIndentation column column cursor
    if isBreak behind.peek then
      let (lineBreak, next) := behind.lineBreak
      let (others, last, final) := blankLines column next.mark fuel next
      (lineBreak ++ others, last, final)
    else ([], finish, behind)

/-- The blank lines in front of the first line with content, as they are found
while its indentation is not known: the breaks, the column where the first of
them breaks, the largest column reached, and the mark behind the last break. -/
structure Lead where
  breaks : List Char
  firstBreak : Option Nat
  deepest : Nat
  finish : Mark
  deriving DecidableEq, Repr

/-- Reads the lead of a block scalar without an indentation indicator. -/
def leadingLines (lead : Lead) : Nat -> Cursor -> Lead × Cursor
  | 0, cursor => (lead, cursor)
  | fuel + 1, cursor =>
    if cursor.peek == ' ' then
      let next := cursor.advance
      leadingLines { lead with deepest := max lead.deepest next.column } fuel next
    else if isBreak cursor.peek then
      let (lineBreak, next) := cursor.lineBreak
      let firstBreak := lead.firstBreak.or (some cursor.column)
      leadingLines
        { lead with breaks := lead.breaks ++ lineBreak, firstBreak, finish := next.mark }
        fuel next
    else (lead, cursor)

/-- Whether the blank lines are deeper than the first of them, which leaves the
indentation of the content in doubt. -/
def Lead.inDoubt (lead : Lead) : Bool :=
  match lead.firstBreak with
  | some column => 0 < column && column < lead.deepest
  | none => false

/-- Whether the break between two lines of content is folded. Lines that begin
with white space keep their breaks. -/
def foldsBetween (style : BlockStyle) (line next lineBreak : List Char) : Bool :=
  let flush (text : List Char) := !isSpaceOrTab (text.headD endOfText)
  style == .folded && lineBreak == ['\n'] && flush line && flush next

/-- Adds the breaks that end a block scalar. -/
def Chomping.apply (chomping : Chomping) (lineBreak blankLines : List Char) : List Char :=
  match chomping with
  | .strip => []
  | .clip => lineBreak
  | .keep => lineBreak ++ blankLines

/-- Reads the lines of content at a column, each with the breaks that lead to the
next. `breaks` are the blank lines in front, `finish` is the mark behind them;
`documentsEnd` says that a document marker may end the scalar. -/
def blockLines (style : BlockStyle) (chomping : Chomping) (column : Nat) (documentsEnd : Bool)
    (breaks : List Char) (finish : Mark) : Nat -> Cursor -> List Char × Mark × Cursor
  | 0, cursor => (Chomping.apply chomping [] breaks, finish, cursor)
  | fuel + 1, cursor =>
    let (line, behind) := cursor.takeWhile fun c => !endsContent c
    let (lineBreak, next) := behind.lineBreak
    let (blank, last, following) := blankLines column next.mark (next.rest.length + 1) next
    let stops :=
      (documentsEnd && following.column == 0 && following.atDocumentMarker) ||
        following.column != column || following.rest.isEmpty
    if stops then (breaks ++ line ++ Chomping.apply chomping lineBreak blank, last, following)
    else
      let between :=
        if foldsBetween style line following.rest lineBreak then
          if blank.isEmpty then [' '] else []
        else lineBreak
      let (others, final, behindAll) :=
        blockLines style chomping column documentsEnd blank last fuel following
      (breaks ++ line ++ between ++ others, final, behindAll)

/-- Reads a block scalar. Its content lies at the column `least` or deeper. -/
def blockScalar (style : BlockStyle) (least : Nat) (start : Cursor) :
    Except Error (String × Mark × Cursor) := do
  let (header, body) <- blockHeader start.mark start.advance
  let (column, breaks, finish, content) <-
    match header.increment with
    | none =>
      let lead : Lead := { breaks := [], firstBreak := none, deepest := 0, finish := body.mark }
      let (lead, content) := leadingLines lead body.rest.length body
      if lead.inDoubt then
        Except.error (Error.lexicalAt .deeperBlankLine content.mark)
      else pure (max least lead.deepest, lead.breaks, lead.finish, content)
    | some increment =>
      let column := max least 1 + increment - 1
      let (breaks, finish, content) := blankLines column body.mark (body.rest.length + 1) body
      pure (column, breaks, finish, content)
  if content.column == column && !content.rest.isEmpty then
    let documentsEnd := least == 0 && header.increment.isNone
    let (text, final, behind) :=
      blockLines style header.chomping column documentsEnd breaks finish content.rest.length content
    return (String.ofList text, final, behind)
  else return (String.ofList (Chomping.apply header.chomping [] breaks), finish, content)

end Token

end Roster.Yaml
