import Roster.Source

/-!
# Readers

A reader is a source that is fixed once and read any number of times. Only a
reader of YAML files changes by reading: it remembers the version of the last
directives it met.
-/

namespace Roster

open Roster.Storage (Path Store)

/-- A source to read from. -/
inductive Reader where
  | text (source : Datum)
  | arguments (items : List Datum)
  | plainFile (path : Path)
  | yamlFile (path : Path) (version : Option Yaml.Version)
  deriving Repr

namespace Reader

/-- The reader of arguments, which have to come one by one. -/
def ofArguments (source : Datum) : Except ReadError Reader :=
  match source.items? with
  | some items => .ok (.arguments items)
  | none => .error (.notIterable source.typeName)

/-- The reader of a YAML file that has read nothing yet. -/
def ofYamlFile (path : Path) : Reader := .yamlFile path none

/-- The text a reader of texts reads. -/
def source? : Reader -> Option Datum
  | .text source => some source
  | _ => none

/-- Reads from a source, and gives the reader as it is afterwards. -/
def read (store : Store) : Reader -> Except ReadError Reading × Reader
  | .text (.text source) => (readText source, .text (.text source))
  | .text source => (.error (.notText source.typeName), .text source)
  | .arguments items => (readArguments items, .arguments items)
  | .plainFile path => (readPlainFile store path, .plainFile path)
  | .yamlFile path version =>
    let (reading, after) := readYamlFile version store path
    (reading, .yamlFile path after)

end Reader

end Roster
