import Roster.Datum
import Roster.Text.Blank
import Roster.Text.Wide

/-!
# Node configurations

The ordered list of node descriptors a program is told to work with. A descriptor
is opaque but for two rules: it is not empty and holds no blank character. A
configuration only grows, entry by entry, and every entry knows its position.
-/

namespace Roster

/-- A descriptor at its position, counted from zero. -/
structure Entry where
  index : Nat
  descriptor : String
  deriving DecidableEq, Repr

/-- A list of entries in order. Equal descriptors may occur more than once. -/
structure Configuration where
  entries : List Entry
  deriving DecidableEq, Repr

/-- Why something is not a descriptor. -/
inductive InvalidDescriptor where
  | notText (typeName : String)
  | empty
  | containsBlank (descriptor : Text.Wide)
  deriving DecidableEq, Repr

/-- The wording of a refused descriptor, in which halves show as escapes. -/
def InvalidDescriptor.message : InvalidDescriptor -> String
  | .notText typeName => s!"Descriptor must be a string, got {typeName}"
  | .empty => "Descriptor must not be empty"
  | .containsBlank descriptor => s!"Descriptor '{descriptor.shown}' contains whitespace"

namespace Configuration

/-- The configuration without entries. -/
def empty : Configuration := { entries := [] }

/-- The number of entries. -/
def size (configuration : Configuration) : Nat := configuration.entries.length

/-- The descriptors in order. -/
def descriptors (configuration : Configuration) : List String :=
  configuration.entries.map Entry.descriptor

/-- The entry that would come next with a descriptor. -/
def nextEntry (configuration : Configuration) (descriptor : String) : Entry :=
  { index := configuration.size, descriptor }

/-- Adds a descriptor behind all entries. -/
def add (configuration : Configuration) (descriptor : String) :
    Except InvalidDescriptor Configuration :=
  if descriptor.toList.isEmpty then .error .empty
  else if descriptor.toList.any Text.isBlank then .error (.containsBlank descriptor)
  else .ok { entries := configuration.entries ++ [configuration.nextEntry descriptor] }

/-- Adds a datum, which has to be a descriptor. -/
def addDatum (configuration : Configuration) : Datum -> Except InvalidDescriptor Configuration
  | .text descriptor => configuration.add descriptor
  | datum => .error (.notText datum.typeName)

/-- Adds descriptors one after another, up to the first that is refused. -/
def addAll (configuration : Configuration) (descriptors : List String) :
    Except InvalidDescriptor Configuration :=
  descriptors.foldlM add configuration

/-- Adds data one after another, up to the first that is refused. -/
def addAllData (configuration : Configuration) (data : List Datum) :
    Except InvalidDescriptor Configuration :=
  data.foldlM addDatum configuration

/-- The configuration of a list of descriptors. -/
def ofDescriptors (descriptors : List String) : Except InvalidDescriptor Configuration :=
  empty.addAll descriptors

/-- The entry at a position. Negative positions count from the end. -/
def entryAt? (configuration : Configuration) (position : Int) : Option Entry :=
  if position < 0 then
    if -position <= configuration.size then
      configuration.entries[(position + configuration.size).toNat]?
    else none
  else configuration.entries[position.toNat]?

/-- One line that counts the entries, then one line for each. -/
def listing (configuration : Configuration) : String :=
  let noun := if configuration.size == 1 then "entry" else "entries"
  let line (entry : Entry) : String := s!"  [{entry.index}] {entry.descriptor}"
  "\n".intercalate
    (s!"Node configuration ({configuration.size} {noun}):" :: configuration.entries.map line)

end Configuration

/-- Why there is no entry at a position. -/
inductive PositionError where
  /-- There are not so many entries. -/
  | outOfRange
  /-- The position does not fit into a signed 64-bit number. -/
  | tooLarge
  /-- The position is not a number. -/
  | notNumber (typeName : String)
  deriving DecidableEq, Repr

/-- The wording of a refused position. -/
def PositionError.message : PositionError -> String
  | .outOfRange => "list index out of range"
  | .tooLarge => "cannot fit 'int' into an index-sized integer"
  | .notNumber typeName => s!"list indices must be integers or slices, not {typeName}"

/-- The first number too large for a signed 64-bit number. -/
def positionLimit : Int := 0x8000000000000000

/-- The entry at a position given as a datum. A truth value counts as 0 or 1. -/
def Configuration.entryAtDatum (configuration : Configuration) (position : Datum) :
    Except PositionError Entry :=
  let within (number : Int) : Except PositionError Entry :=
    if number < -positionLimit || positionLimit <= number then .error .tooLarge
    else (configuration.entryAt? number).elim (.error .outOfRange) .ok
  match position with
  | .int number => within number
  | .bool value => within (if value then 1 else 0)
  | datum => .error (.notNumber datum.typeName)

end Roster
