import Roster.Decimal
import Roster.Text.Quoted

/-!
# Arguments of any type

Descriptors, sources and formats are texts, but a caller may hand over anything.
A datum is what a caller may hand over; it is either used as a text or reported
by the name of its type or by its display. Its texts are strings, so they hold no halves
of pairs.
-/

namespace Roster

/-- An argument of any type. -/
inductive Datum where
  | null
  | bool (value : Bool)
  | int (value : Int)
  | decimal (value : Decimal)
  | text (value : String)
  | list (items : List Datum)
  | record (fields : List (String × Datum))
  deriving Repr, Inhabited

namespace Datum

/-- The name of the type of a datum. -/
def typeName : Datum -> String
  | .null => "NoneType"
  | .bool _ => "bool"
  | .int _ => "int"
  | .decimal _ => "float"
  | .text _ => "str"
  | .list _ => "list"
  | .record _ => "dict"

mutual

/-- How a datum shows inside a collection. -/
def display : Datum -> String
  | .null => "None"
  | .bool true => "True"
  | .bool false => "False"
  | .int value => toString value
  | .decimal value => value.display
  | .text value => Text.quoted value
  | .list items => "[" ++ ", ".intercalate (displayItems items) ++ "]"
  | .record fields => "\x7b" ++ ", ".intercalate (displayFields fields) ++ "\x7d"

/-- How the items of a list show. -/
def displayItems : List Datum -> List String
  | [] => []
  | item :: others => item.display :: displayItems others

/-- How the fields of a record show. -/
def displayFields : List (String × Datum) -> List String
  | [] => []
  | (name, value) :: others =>
    (Text.quoted name ++ ": " ++ value.display) :: displayFields others

end

/-- How a datum shows by itself: a text is not quoted. -/
def plain : Datum -> String
  | .text value => value
  | datum => datum.display

/-- The items a datum gives one by one: those of a list, the characters of a text,
the names of a record's fields. -/
def items? : Datum -> Option (List Datum)
  | .list items => some items
  | .text value => some (value.toList.map fun c => .text (String.singleton c))
  | .record fields => some (fields.map fun field => .text field.1)
  | _ => none

end Datum

end Roster
