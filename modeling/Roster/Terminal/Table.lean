import Roster.Configuration
import Roster.Terminal.Wrap

/-!
# The table of entries

A configuration shows as a table with one row for each entry. The table is as wide
as its widest descriptor needs, but never wider than the screen: a descriptor that
does not fit is cut and ends in an ellipsis.
-/

namespace Roster.Terminal

/-- The number of cells of a line on the screen. -/
def screenWidth : Nat := 80

/-- The characters a terminal would act on instead of showing them. -/
def isSuppressed (c : Char) : Bool :=
  let code := c.toNat
  code == 0x07 || code == 0x08 || (0x0B <= code && code <= 0x0D)

/-- A text without the characters a terminal would act on. -/
def visible (text : List Char) : List Char :=
  text.filter fun c => !isSuppressed c

/-- A text with spaces behind it up to a width. -/
def padEnd (width : Nat) (text : List Char) : List Char :=
  text ++ List.replicate (width - cells text) ' '

/-- A text with spaces in front of it up to a width. -/
def padStart (width : Nat) (text : List Char) : List Char :=
  List.replicate (width - cells text) ' ' ++ text

/-- A text that ends in an ellipsis if it is wider than a width. -/
def abridge (width : Nat) (text : List Char) : List Char :=
  if cells text <= width then text else fitting (width - 1) (clusters text) ++ ['…']

/-- The widths of the two columns of a table. -/
structure ColumnWidths where
  index : Nat
  descriptor : Nat
  deriving DecidableEq, Repr

/-- The heading of the positions. -/
def indexHeading : List Char := ['#']

/-- The heading of the descriptors. -/
def descriptorHeading : List Char := "Descriptor".toList

/-- The position of an entry as it shows. -/
def shownIndex (entry : Entry) : List Char := (toString entry.index).toList

/-- The descriptor of an entry as it shows in a table that is wide enough. -/
def shownDescriptor (entry : Entry) : List Char := visible entry.descriptor.toList

namespace ColumnWidths

/-- The cells of a line that belong to no column: the borders and the spaces
beside them. -/
def frame : Nat := 7

/-- The widths that the entries need, as far as the screen allows. -/
def ofEntries (entries : List Entry) : ColumnWidths :=
  let widest (heading : List Char) (shown : Entry -> List Char) : Nat :=
    (entries.map fun entry => cells (shown entry)).foldl max (cells heading)
  let index := widest indexHeading shownIndex
  { index, descriptor := min (widest descriptorHeading shownDescriptor)
      (screenWidth - frame - index) }

/-- The width of the whole table. -/
def total (widths : ColumnWidths) : Nat := widths.index + widths.descriptor + frame

end ColumnWidths

/-- A horizontal border: its left end, line, crossing and right end. -/
structure Border where
  left : Char
  line : Char
  crossing : Char
  right : Char

namespace Border

/-- The border above the headings. -/
def top : Border := { left := '┏', line := '━', crossing := '┳', right := '┓' }

/-- The border below the headings. -/
def middle : Border := { left := '┡', line := '━', crossing := '╇', right := '┩' }

/-- The border below the entries. -/
def bottom : Border := { left := '└', line := '─', crossing := '┴', right := '┘' }

/-- A border of a table. -/
def render (border : Border) (widths : ColumnWidths) : List Char :=
  [border.left] ++ List.replicate (widths.index + 2) border.line ++ [border.crossing] ++
    List.replicate (widths.descriptor + 2) border.line ++ [border.right]

end Border

/-- A line of a table: positions stand at the right of their column, descriptors at
the left. -/
def tableLine (bar : Char) (widths : ColumnWidths) (index descriptor : List Char) :
    List Char :=
  [bar, ' '] ++ padStart widths.index index ++ [' ', bar, ' '] ++
    padEnd widths.descriptor (abridge widths.descriptor descriptor) ++ [' ', bar]

/-- The row of an entry. -/
def entryLine (widths : ColumnWidths) (entry : Entry) : List Char :=
  tableLine '│' widths (shownIndex entry) (shownDescriptor entry)

/-- A table of entries. -/
def tableLines (entries : List Entry) : List (List Char) :=
  let widths := ColumnWidths.ofEntries entries
  [Border.top.render widths, tableLine '┃' widths indexHeading descriptorHeading,
      Border.middle.render widths] ++
    entries.map (entryLine widths) ++
    [Border.bottom.render widths]

/-- The title above a table of entries: it is not wider than the table. -/
def titleLines (title : List Char) (entries : List Entry) : List (List Char) :=
  let width := (ColumnWidths.ofEntries entries).total
  (wrap width title).map (centre width)

end Roster.Terminal
