import Roster.Source
import Roster.Yaml.Presentation

/-!
# Exporting configurations

A configuration is written in one of two formats that the readers accept: as a
YAML document, or as plain text with one descriptor in a line. Writing to a file
goes through a temporary file beside the target, so the target either keeps its
old content or gets the whole of the new.
-/

namespace Roster

open Roster.Storage (Path Store)

/-- The formats of an export. -/
inductive Format where
  | yaml
  | text
  deriving DecidableEq, Repr

namespace Format

/-- The name of a format. -/
def name : Format -> String
  | .yaml => "yaml"
  | .text => "text"

/-- All formats. -/
def all : List Format := [.yaml, .text]

/-- The format with a name. -/
def ofName? (name : String) : Option Format :=
  all.find? fun format => format.name == name

/-- The format a datum names. -/
def ofDatum? : Datum -> Option Format
  | .text name => ofName? name
  | _ => none

end Format

/-- Why a configuration cannot be exported. -/
inductive ExportError where
  | unknownFormat (display : String)
  /-- A descriptor that would read back as a comment. -/
  | looksLikeComment (descriptor : Text.Wide)
  deriving DecidableEq, Repr

/-- The wording of a refused export, in which halves show as escapes. -/
def ExportError.message : ExportError -> String
  | .unknownFormat display =>
    let known := ", ".intercalate (Format.all.map fun format => Text.quoted format.name)
    s!"Unknown export format '{display}', expected one of ({known})"
  | .looksLikeComment descriptor =>
    s!"Descriptor '{descriptor.shown}' starts with '#' and cannot be exported as text, " ++
      "use the yaml format"

namespace Configuration

/-- The column at which the items of the exported sequence begin. -/
def itemColumn : Nat := 4

/-- An item of the exported sequence. -/
def yamlItem (descriptor : String) : List Char :=
  "  - ".toList ++ Yaml.Presentation.scalar itemColumn descriptor.toList ++ ['\n']

/-- A configuration as a YAML document. -/
def toYaml (configuration : Configuration) : List Char :=
  if configuration.entries.isEmpty then nodesKey.toList ++ ": []\n".toList
  else nodesKey.toList ++ ":\n".toList ++ configuration.descriptors.flatMap yamlItem

/-- Whether a descriptor would read back as a comment. -/
def looksLikeComment (descriptor : String) : Bool :=
  descriptor.toList.head? == some '#'

/-- A configuration as plain text, unless a descriptor would read back as a
comment. -/
def toText (configuration : Configuration) : Except ExportError (List Char) :=
  match configuration.descriptors.find? looksLikeComment with
  | some descriptor => .error (.looksLikeComment descriptor)
  | none => .ok (configuration.descriptors.flatMap fun descriptor => descriptor.toList ++ ['\n'])

/-- A configuration in a format. -/
def exportIn (configuration : Configuration) : Format -> Except ExportError (List Char)
  | .yaml => .ok configuration.toYaml
  | .text => configuration.toText

/-- A configuration in the format a datum names. -/
def exportAs (configuration : Configuration) (format : Datum) :
    Except ExportError (List Char) :=
  match Format.ofDatum? format with
  | some format => configuration.exportIn format
  | none => .error (.unknownFormat format.plain)

end Configuration

/-- Why a configuration cannot be written to a file. -/
inductive WriteError where
  | refused (cause : ExportError)
  /-- The target is the working directory. -/
  | emptyName (path : Path)
  | nulInPath
  | storage (failure : Storage.Failure)
  /-- The text to write holds a half. -/
  | unencodable (fault : Text.Utf8.EncodingFault)
  deriving DecidableEq, Repr

/-- The wording of a failed write. -/
def WriteError.message : WriteError -> String
  | .refused cause => cause.message
  | .emptyName path => s!"PosixPath({Text.quoted path.toString}) has an empty name"
  | .nulInPath => "embedded null byte"
  | .storage failure => failure.message
  | .unencodable fault => fault.message

/-- What the name of a temporary file adds to the name of its target. -/
def temporarySuffix : String := ".nodeconf.tmp"

/-- The temporary file beside a target. -/
def temporaryPath? (target : Path) : Option Path :=
  target.name?.map fun name => target.withName (name ++ temporarySuffix)

namespace Storage.Store

/-- Takes away a temporary file after a failure. If that fails too, the later
failure is the one that counts. -/
def discard (store : Store) (temporary : Path) (failure : Failure) : Failure × Store :=
  match store.remove temporary with
  | .ok cleaned => (failure, cleaned)
  | .error later =>
    match later.refusal with
    | .notFound | .notDirectory => (failure, store)
    | _ => (later, store)

/-- Replaces the content of a file through a temporary file. The store is given
back also after a failure, when only the temporary file may have changed. -/
def replace (store : Store) (temporary target : Path) (bytes : List UInt8) :
    Except Failure Unit × Store :=
  let result := do
    let written <- (store.write temporary bytes).mapError fun failure => (failure, store)
    (written.rename temporary target).mapError fun failure => (failure, written)
  match result with
  | .ok replaced => (.ok (), replaced)
  | .error (failure, reached) =>
    let (final, cleaned) := reached.discard temporary failure
    (.error final, cleaned)

end Storage.Store

/-- The name under which exports report. -/
def exportReporter : String := "nodeconf.exporter"

/-- The report of a configuration written to a file. -/
def writtenRecord (size : Nat) (target : Path) (format : Datum) : LogRecord :=
  let message :=
    s!"Wrote {size} node entries to {target.toString} ({format.plain})"
  { level := .info, reporter := exportReporter, message }

/-- Writes a configuration to a file in the format a datum names, and gives the
store afterwards. -/
def Configuration.write (configuration : Configuration) (store : Store) (target : Path)
    (format : Datum) : Except WriteError LogRecord × Store :=
  match configuration.exportAs format with
  | .error cause => (.error (.refused cause), store)
  | .ok content =>
    match temporaryPath? target with
    | none => (.error (.emptyName target), store)
    | some temporary =>
      if temporary.hasNul then (.error .nulInPath, store)
      else
        match store.replace temporary target (Text.Utf8.encode content) with
        | (.ok (), after) => (.ok (writtenRecord configuration.size target format), after)
        | (.error failure, after) => (.error (.storage failure), after)

end Roster
