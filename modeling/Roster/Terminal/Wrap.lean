import Roster.Terminal.Cluster
import Roster.Text.Blank
import Roster.Text.Lines

/-!
# Wrapping

Text is broken into lines of a given width between words. A word that is wider than
any line is cut. Blanks at a break stay at the end of the line as far as they fit.
-/

namespace Roster.Terminal

/-- The distance between tabulator stops. -/
def tabWidth : Nat := 8

/-- Joins pieces of a line by tabulators, each of which reaches the next stop and
takes at least one cell. `column` is where the first piece begins. -/
def joinAtStops (column : Nat) : List (List Char) -> List Char
  | [] => []
  | [piece] => piece
  | piece :: others =>
    let reached := column + cells (piece ++ [' '])
    let missing := (tabWidth - reached % tabWidth) % tabWidth
    piece ++ List.replicate (missing + 1) ' ' ++ joinAtStops (reached + missing) others

/-- Replaces the tabulators of a line by spaces. -/
def expandTabs (line : List Char) : List Char :=
  joinAtStops 0 (Text.pieces '\t' line)

/-- Cuts a line in front of each word that follows a blank. -/
def cutAtWords : List Char -> List (List Char)
  | [] => []
  | c :: rest =>
    match cutAtWords rest with
    | [] => [[c]]
    | part :: others =>
      if Text.isBlank c && Text.startsWord rest then [c] :: part :: others
      else (c :: part) :: others

/-- The parts of a line that are kept together: words with the blanks behind them.
Blanks in front of the first word belong to it. -/
def wrapUnits (line : List Char) : List (List Char) :=
  match cutAtWords line with
  | first :: second :: others =>
    if Text.startsWord first then first :: second :: others else (first ++ second) :: others
  | parts => parts

/-- A text without the blanks at its end. -/
def trimEnd (text : List Char) : List Char :=
  (text.reverse.dropWhile Text.isBlank).reverse

/-- Cuts clusters into pieces of a width. `piece` is what the current piece holds
already, and `size` is its width. -/
def chopBehind (width : Nat) (piece : List Char) (size : Nat) :
    List Cluster -> List (List Char)
  | [] => [piece]
  | cluster :: others =>
    if size + cluster.width > width then
      piece :: chopBehind width cluster.text cluster.width others
    else chopBehind width (piece ++ cluster.text) (size + cluster.width) others

/-- Cuts a text into pieces of a width. -/
def chop (width : Nat) (text : List Char) : List (List Char) :=
  chopBehind width [] 0 (clusters text)

/-- Fills lines of a width with units. `line` is what the current line holds
already, and `column` is its width. -/
def fill (width : Nat) (line : List Char) (column : Nat) :
    List (List Char) -> List (List Char)
  | [] => [line]
  | part :: others =>
    let needed := cells (trimEnd part)
    if column + needed <= width then fill width (line ++ part) (column + cells part) others
    else
      let finished := if line.isEmpty then [] else [line]
      if needed <= width then finished ++ fill width part (cells part) others
      else
        let pieces := chop width part
        let last := pieces.getLastD []
        finished ++ pieces.dropLast ++ fill width last (cells last) others

/-- Takes away blanks at the end of a line as far as it has more characters than
the width. -/
def trimExcess (width : Nat) (line : List Char) : List Char :=
  let blanks := line.length - (trimEnd line).length
  line.take (line.length - min blanks (line.length - width))

/-- Wraps a single line. -/
def wrapLine (width : Nat) (line : List Char) : List (List Char) :=
  (fill width [] 0 (wrapUnits (expandTabs line))).map fun filled =>
    clip width (trimExcess width filled)

/-- Wraps a text. A newline always ends a line. -/
def wrap (width : Nat) (text : List Char) : List (List Char) :=
  (Text.pieces '\n' text).flatMap (wrapLine width)

/-- A line in the middle of a width: if the spaces around it are odd in number,
the larger half is behind it. -/
def centre (width : Nat) (line : List Char) : List Char :=
  let trimmed := clip width (trimEnd line)
  let missing := width - cells trimmed
  List.replicate (missing / 2) ' ' ++ trimmed ++ List.replicate (missing - missing / 2) ' '

end Roster.Terminal
