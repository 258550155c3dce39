import Roster.Configuration.Wide
import Roster.Log
import Roster.Storage.Store
import Roster.Text.Comment
import Roster.Text.Lines
import Roster.Text.Utf8
import Roster.Yaml.Document

/-!
# Reading configurations

A configuration comes from a text, from a list of arguments, from a plain text
file or from a YAML file. Reading gives the configuration with a report for the
log, or the first thing that is wrong with the source and no configuration at all.
Only a YAML file can name descriptors with halves in them, by escapes; reading one has an
outcome of its own, which gives the wide configuration.
-/

namespace Roster

open Roster.Storage (Path Store)

/-- A wide configuration that was read, and what there is to report about it. -/
structure WideReading where
  configuration : WideConfiguration
  report : LogRecord
  deriving DecidableEq, Repr

/-- Why a source gives no configuration. -/
inductive ReadError where
  | descriptor (cause : InvalidDescriptor)
  /-- The source of a text is something else. -/
  | notText (typeName : String)
  /-- The arguments do not come one by one. -/
  | notIterable (typeName : String)
  | nulInPath
  | storage (failure : Storage.Failure)
  | encoding (fault : Text.Utf8.Fault)
  | yaml (text : List Char) (error : Yaml.Error)
  /-- The document is no mapping. -/
  | noMapping (path : Path)
  /-- The nodes are no sequence. -/
  | noSequence (path : Path)
  /-- A node is no scalar. -/
  | noScalar (path : Path) (item : Yaml.Value)
  /-- Nothing is wrong, but there are halves among the descriptors: what was read is no
  configuration of strings. -/
  | halved (reading : WideReading)
  deriving Repr

/-- The key of the nodes in a document. -/
def nodesKey : String := "nodes"

/-- The wording of a refused source. -/
def ReadError.message : ReadError -> String
  | .descriptor cause => cause.message
  | .notText typeName => s!"'{typeName}' object has no attribute 'split'"
  | .notIterable typeName => s!"'{typeName}' object is not iterable"
  | .nulInPath => "embedded null byte"
  | .storage failure => failure.message
  | .encoding fault => fault.message
  | .yaml text error => error.message text
  | .noMapping path => s!"{path.toString}: top level must be a mapping with a '{nodesKey}' key"
  | .noSequence path => s!"{path.toString}: '{nodesKey}' must be a sequence"
  | .noScalar path item =>
    s!"{path.toString}: '{nodesKey}' items must be scalars, got {item.display}"
  | .halved _ => "a descriptor holds half of a pair"

/-- A configuration that was read, and what there is to report about it. -/
structure Reading where
  configuration : Configuration
  report : Option LogRecord
  deriving DecidableEq, Repr

namespace Reading

/-- The name under which readers report. -/
def reporter : String := "nodeconf.reader"

/-- The report of how many entries came from where. -/
def countRecord (size : Nat) (origin : String) : LogRecord :=
  { level := .debug, reporter, message := s!"Read {size} node entries from {origin}" }

/-- A reading that reports how many entries came from where. -/
def counted (configuration : Configuration) (origin : String) : Reading :=
  { configuration, report := some (countRecord configuration.size origin) }

end Reading

/-- The configuration of a list of descriptors, reported with its origin. -/
def countedReading (origin : String) (result : Except InvalidDescriptor Configuration) :
    Except ReadError Reading :=
  match result with
  | .error cause => .error (.descriptor cause)
  | .ok configuration => .ok (Reading.counted configuration origin)

/-- The words of a text as strings. -/
def wordsOf (text : List Char) : List String :=
  (Text.words text).map String.ofList

/-- Reads the words of a text. -/
def readText (text : String) : Except ReadError Reading :=
  countedReading "string source" (Configuration.ofDescriptors (wordsOf text.toList))

/-- Reads arguments, each of which is one descriptor. -/
def readArguments (arguments : List Datum) : Except ReadError Reading :=
  countedReading "argument list" (Configuration.empty.addAllData arguments)

/-- Reads the text of the file at a path, with newlines unified. -/
def readFileText (store : Store) (path : Path) : Except ReadError (List Char) := do
  if path.hasNul then .error .nulInPath
  else
    let bytes <- (store.read path).mapError ReadError.storage
    let text <- (Text.Utf8.read bytes).mapError ReadError.encoding
    return Text.unifyNewlines text

/-- The descriptors of a plain text: the words of each line in front of a comment. -/
def plainDescriptors (text : List Char) : List String :=
  (Text.lines text).flatMap fun line => wordsOf (Text.cutComment line)

/-- Reads a plain text file. -/
def readPlainFile (store : Store) (path : Path) : Except ReadError Reading := do
  let text <- readFileText store path
  countedReading path.toString (Configuration.ofDescriptors (plainDescriptors text))

/-- Adds an item of the nodes of a document. -/
def addNode (path : Path) (configuration : WideConfiguration) (item : Yaml.Value) :
    Except ReadError WideConfiguration :=
  match item with
  | .text descriptor => (configuration.add descriptor).mapError ReadError.descriptor
  | _ => .error (.noScalar path item)

/-- The reading of the nodes of a document, reported with its origin. -/
def nodesReading (origin : String) (nodes : WideConfiguration) : Except ReadError Reading :=
  if nodes.isHalved then
    .error (.halved
      { configuration := nodes, report := Reading.countRecord nodes.size origin })
  else countedReading origin (Configuration.ofDescriptors nodes.strings)

/-- The reading of a document without nodes, which is reported as a warning. -/
def withoutNodes (path : Path) : Reading :=
  let message := s!"{path.toString}: no '{nodesKey}' entries, configuration is empty"
  { configuration := .empty
    report := some { level := .warning, reporter := Reading.reporter, message } }

/-- Reads a document: none at all is an empty configuration without a report, a
mapping may lack nodes, and nodes are scalars in a sequence. -/
def readDocument (path : Path) : Option Yaml.Value -> Except ReadError Reading
  | none | some .null => .ok { configuration := .empty, report := none }
  | some (.mapping entries) =>
    match entries.lookup (.text nodesKey) with
    | none | some .null | some (.text "") => .ok (withoutNodes path)
    | some (.sequence items) => do
      nodesReading path.toString (<- items.foldlM (addNode path) WideConfiguration.empty)
    | some _ => .error (.noSequence path)
  | some _ => .error (.noMapping path)

/-- Reads a YAML file under the version in force, and gives the version in force
afterwards. -/
def readYamlFile (version : Option Yaml.Version) (store : Store) (path : Path) :
    Except ReadError Reading × Option Yaml.Version :=
  match readFileText store path with
  | .error error => (.error error, version)
  | .ok text =>
    let (document, after) := Yaml.load version text
    let reading := do
      readDocument path (<- document.mapError (ReadError.yaml text))
    (reading, after)

end Roster
