import Roster.Yaml.Character

/-!
# Places in a text

A mark is a place in a text. Lines and columns count from zero; only a newline
begins a new line, whatever else the scanner takes for a line break. A mark is
reported together with an excerpt of the line it lies in.
-/

namespace Roster.Yaml

/-- A place: the number of characters in front of it, its line and its column. -/
structure Mark where
  index : Nat
  line : Nat
  column : Nat
  deriving DecidableEq, Repr, Inhabited

namespace Mark

/-- The beginning of a text. -/
def zero : Mark := { index := 0, line := 0, column := 0 }

/-- The place behind a character. A byte order mark takes up no column. -/
def after (mark : Mark) (c : Char) : Mark :=
  if c = '\n' then { index := mark.index + 1, line := mark.line + 1, column := 0 }
  else if c = '\ufeff' then { mark with index := mark.index + 1 }
  else { mark with index := mark.index + 1, column := mark.column + 1 }

/-- Whether two marks lie in the same line and column. -/
def sameSpot (left right : Mark) : Bool :=
  left.line == right.line && left.column == right.column

/-- How far an excerpt reaches to each side of its mark before it is cut. -/
def excerptReach : Nat := 36

/-- How much of a cut side makes room for the ellipsis. -/
def ellipsisRoom : Nat := 5

/-- One side of an excerpt: the characters from the mark to the end of the line,
nearest first. A side longer than the reach is cut short; the flag says so. -/
def excerptSide (line : List Char) : List Char × Bool :=
  let side := line.takeWhile fun c => !isBreakOrEnd c
  if side.length > excerptReach then (side.take (excerptReach + 1 - ellipsisRoom), true)
  else (side, false)

/-- The line around a mark with a caret below the mark. -/
def excerpt (mark : Mark) (text : List Char) : String :=
  let (before, cutBefore) := excerptSide (text.take mark.index).reverse
  let (behind, cutBehind) := excerptSide (text.drop mark.index)
  let ellipsis (cut : Bool) : List Char := if cut then " ... ".toList else []
  let blanks (count : Nat) : List Char := List.replicate count ' '
  let head := ellipsis cutBefore
  let shown := blanks 4 ++ head ++ before.reverse ++ behind ++ ellipsis cutBehind
  let caret := blanks (4 + before.length + head.length) ++ ['^']
  s!"{String.ofList shown}\n{String.ofList caret} (line: {mark.line + 1})"

/-- The report of a mark in a text. -/
def report (mark : Mark) (text : List Char) : String :=
  s!"  in \"<unicode string>\", line {mark.line + 1}, column {mark.column + 1}:\n{mark.excerpt text}"

end Mark

/-- A mark together with the text from there on. -/
structure Cursor where
  mark : Mark
  rest : List Char
  deriving Repr, Inhabited

namespace Cursor

/-- The cursor at the beginning of a text. -/
def start (text : List Char) : Cursor :=
  { mark := .zero, rest := text }

/-- The next character. -/
def peek (cursor : Cursor) : Char :=
  cursor.rest.headD endOfText

/-- The character some places further on. -/
def peekAt (cursor : Cursor) (distance : Nat) : Char :=
  cursor.rest.getD distance endOfText

/-- The cursor behind the next character; at the end it stays. -/
def advance (cursor : Cursor) : Cursor :=
  match cursor.rest with
  | [] => cursor
  | c :: rest => { mark := cursor.mark.after c, rest }

/-- The cursor behind a number of characters. -/
def skip (cursor : Cursor) : Nat -> Cursor
  | 0 => cursor
  | count + 1 => cursor.advance.skip count

/-- The column of the next character. -/
def column (cursor : Cursor) : Nat := cursor.mark.column

/-- The characters in front that lie in a class, and the cursor behind them. -/
def takeWhile (cursor : Cursor) (inClass : Char -> Bool) : List Char × Cursor :=
  go cursor.mark cursor.rest
where
  /-- Works through the text, moving the mark along. -/
  go (mark : Mark) : List Char -> List Char × Cursor
    | [] => ([], { mark, rest := [] })
    | c :: rest =>
      if inClass c then
        let (taken, final) := go (mark.after c) rest
        (c :: taken, final)
      else ([], { mark, rest := c :: rest })

/-- The cursor behind all characters in front that lie in a class. -/
def skipWhile (cursor : Cursor) (inClass : Char -> Bool) : Cursor :=
  (cursor.takeWhile inClass).2

/-- Whether the text goes on with a document marker: three equal characters set
off by white space or the end. -/
def atMarker (cursor : Cursor) (c : Char) : Bool :=
  cursor.peekAt 0 == c && cursor.peekAt 1 == c && cursor.peekAt 2 == c &&
    endsIndicator (cursor.peekAt 3)

/-- Whether the text goes on with the start or the end marker of a document. -/
def atDocumentMarker (cursor : Cursor) : Bool :=
  cursor.atMarker '-' || cursor.atMarker '.'

end Cursor

end Roster.Yaml
