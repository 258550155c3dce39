import Roster.Text.Lines

/-!
# Paths

A path is a list of components below the working directory, which is taken for the root:
a slash in front of a written path changes nothing, and nothing lies above. The written
form may hold empty components and single dots, which mean nothing; two dots are kept, for
they may lead out of something that is no directory. Components are strings: names in
bytes that are no UTF-8 are left out.
-/

namespace Roster.Storage

/-- A path below the working directory. -/
structure Path where
  components : List String
  deriving DecidableEq, Repr

namespace Path

/-- Whether a piece means something. -/
def isComponent (piece : List Char) : Bool :=
  piece != [] && piece != ['.']

/-- Reads a path. -/
def ofString (text : String) : Path :=
  { components := (Text.pieces '/' text.toList).filter isComponent |>.map String.ofList }

/-- Writes a path. The path without components is the working directory. -/
def toString (path : Path) : String :=
  if path.components.isEmpty then "." else "/".intercalate path.components

/-- The last component. -/
def name? (path : Path) : Option String :=
  path.components.getLast?

/-- The directory around the last component. -/
def parent (path : Path) : Path :=
  { components := path.components.dropLast }

/-- A path with another last component. -/
def withName (path : Path) (name : String) : Path :=
  { components := path.components.dropLast ++ [name] }

/-- Whether the written form holds a NUL, which no system call accepts. -/
def hasNul (path : Path) : Bool :=
  path.components.any fun component => component.toList.contains '\x00'

end Path

end Roster.Storage
