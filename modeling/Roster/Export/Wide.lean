import Roster.Export

/-!
# Exporting wide configurations

A YAML document writes halves as escapes, so it holds every wide configuration. Plain text
has no escapes: it is a list of code points then, and a file that is to hold a half in it
cannot be written. The fault is met only when the temporary file is open, and the file is
left behind, without content.
-/

namespace Roster

open Roster.Storage (Path Store)
open Roster.Text (CodePoint Wide)

namespace WideConfiguration

/-- An item of the exported sequence. -/
def yamlItem (descriptor : Wide) : List Char :=
  "  - ".toList ++ Yaml.Presentation.wideScalar Configuration.itemColumn descriptor ++ ['\n']

/-- A configuration as a YAML document. -/
def toYaml (configuration : WideConfiguration) : List Char :=
  if configuration.descriptors.isEmpty then nodesKey.toList ++ ": []\n".toList
  else nodesKey.toList ++ ":\n".toList ++ configuration.descriptors.flatMap yamlItem

/-- Whether a descriptor would read back as a comment. -/
def looksLikeComment (descriptor : Wide) : Bool :=
  descriptor.codes.head? == some (.char '#')

/-- A configuration as plain text, unless a descriptor would read back as a
comment. -/
def toText (configuration : WideConfiguration) : Except ExportError (List CodePoint) :=
  match configuration.descriptors.find? looksLikeComment with
  | some descriptor => .error (.looksLikeComment descriptor)
  | none => .ok (configuration.descriptors.flatMap fun descriptor =>
      descriptor.codes ++ [.char '\n'])

/-- A configuration in a format. -/
def exportIn (configuration : WideConfiguration) : Format -> Except ExportError (List CodePoint)
  | .yaml => .ok (configuration.toYaml.map .char)
  | .text => configuration.toText

/-- A configuration in the format a datum names. -/
def exportAs (configuration : WideConfiguration) (format : Datum) :
    Except ExportError (List CodePoint) :=
  match Format.ofDatum? format with
  | some format => configuration.exportIn format
  | none => .error (.unknownFormat format.plain)

end WideConfiguration

/-- Opens a temporary file for a text that has no bytes. The file stays, and it is empty. -/
def Storage.Store.openFor (store : Store) (temporary : Path) (fault : Text.Utf8.EncodingFault) :
    WriteError × Store :=
  match store.write temporary [] with
  | .ok opened => (.unencodable fault, opened)
  | .error failure =>
    let (final, cleaned) := store.discard temporary failure
    (.storage final, cleaned)

namespace WideConfiguration

/-- Writes a configuration to a file in the format a datum names, and gives the
store afterwards. -/
def write (configuration : WideConfiguration) (store : Store) (target : Path) (format : Datum) :
    Except WriteError LogRecord × Store :=
  match configuration.exportAs format with
  | .error cause => (.error (.refused cause), store)
  | .ok content =>
    match temporaryPath? target with
    | none => (.error (.emptyName target), store)
    | some temporary =>
      if temporary.hasNul then (.error .nulInPath, store)
      else
        match Text.Utf8.encodeCodes content with
        | .error fault =>
          let (error, after) := store.openFor temporary fault
          (.error error, after)
        | .ok bytes =>
          match store.replace temporary target bytes with
          | (.ok (), after) => (.ok (writtenRecord configuration.size target format), after)
          | (.error failure, after) => (.error (.storage failure), after)

/-- The stores that a write passes through: the store as it is, then the one in which the
temporary file grows, and the one that the write leaves. -/
def writeStages (configuration : WideConfiguration) (store : Store) (target : Path)
    (format : Datum) : List Store :=
  let growing :=
    match configuration.exportAs format, temporaryPath? target with
    | .ok content, some temporary =>
      if temporary.hasNul then []
      else
        let bytes := (Text.Utf8.encodeCodes content).toOption.getD []
        (List.range (bytes.length + 1)).filterMap fun count =>
          (store.write temporary (bytes.take count)).toOption
    | _, _ => []
  store :: growing ++ [(configuration.write store target format).2]

end WideConfiguration

end Roster
