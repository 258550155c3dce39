import Roster.CommandLine.Help
import Roster.CommandLine.Invocation
import Roster.Export.Wide
import Roster.Terminal.Display

/-!
# Running the program

The program takes an argument list and a file store and ends with an exit status,
two texts, and the store afterwards. A failing command is reported and ends with
status 1; a refused argument list ends with status 2. A few failures are not
foreseen by the program and break it off.

The terminal takes every character. A half is another matter: a terminal in UTF-8 refuses
it, also in the report of that refusal, and the program is broken off; one in another
encoding may show something for it. So a run that has a half to show is left open.
-/

namespace Roster.CommandLine

open Roster.Storage (Path Store)

/-- Why a command fails. -/
inductive CommandError where
  | noSource
  | read (error : ReadError)
  | refused (error : ExportError)
  | write (error : WriteError)
  /-- The text to show holds a half. -/
  | unprintable
  deriving Repr

namespace CommandError

/-- The wording of a failure. -/
def message : CommandError -> String
  | .noSource => "No node source given (pass a string, --file, --yaml or --nodes)"
  | .read error => error.message
  | .refused error => error.message
  | .write error => error.message
  | .unprintable => "the text to show holds half of a pair"

/-- Whether there is a half to show: in the text, or in the wording of the failure. -/
def showsHalf : CommandError -> Bool
  | .unprintable => true
  | .read (.descriptor (.containsBlank descriptor)) => descriptor.isHalved
  | .read (.yaml _ (.duplicateKey fault)) =>
    match fault.cause with
    | .duplicateKey key new old => key.isHalved || new.isHalved || old.isHalved
    | _ => false
  | .refused (.looksLikeComment descriptor) => descriptor.isHalved
  | .write (.refused (.looksLikeComment descriptor)) => descriptor.isHalved
  | _ => false

/-- Whether the program foresees a failure and reports it. -/
def isForeseen : CommandError -> Bool
  | .read (.notText _) | .read (.notIterable _) => false
  | .read (.yaml _ error) =>
    match error with
    | .nestedKey _ | .unknownMinorVersion _ _ | .escapeTooLarge => false
    | _ => true
  | _ => true

end CommandError

/-- How the program ends. -/
inductive Ending where
  | exit (status : Nat)
  /-- Broken off by a failure that is not foreseen. -/
  | brokenOff (error : CommandError)
  /-- There is a half to show. What becomes of the run, and what it shows, is left open. -/
  | leftOpen
  deriving Repr

/-- What a run of the program leaves. -/
structure Outcome where
  ending : Ending
  /-- What the user asked for. -/
  output : String
  /-- What there is to say about it. -/
  diagnostics : String
  store : Store
  deriving Repr

/-- What a command leaves: the text to show, or why it failed, with the reports made
on the way. -/
structure CommandResult where
  shown : Except CommandError String
  records : List LogRecord
  store : Store

namespace Options

/-- Reads the source the options name, and labels it. -/
def read (options : Options) (store : Store) : Except CommandError (Reading × String) :=
  let labelled (label : String) (reading : Except ReadError Reading) :
      Except CommandError (Reading × String) :=
    (reading.mapError CommandError.read).map fun reading => (reading, label)
  match options.file, options.yaml, options.nodes, options.source with
  | some path, _, _, _ => labelled path (readPlainFile store (.ofString path))
  | none, some path, _, _ => labelled path (readYamlFile none store (.ofString path)).1
  | none, none, some nodes, _ => labelled "arguments" (readArguments (nodes.map Datum.text))
  | none, none, none, some text => labelled "string" (readText text)
  | none, none, none, none => .error .noSource

/-- The format the options name. -/
def formatDatum (options : Options) : Datum :=
  .text (options.format.getD Format.yaml.name)

/-- The file the options name for the output. An empty name counts as none. -/
def outputPath? (options : Options) : Option String :=
  options.output.filter fun path => !path.isEmpty

/-- The level from which on reports are shown. -/
def threshold (options : Options) : LogLevel :=
  (options.logLevel.bind LogLevel.ofName?).getD .warning

end Options

section

variable (pictures : Terminal.Emoji.Pictures)

/-- Shows or writes a configuration that was read. -/
def Command.perform (command : Command) (store : Store) (options : Options)
    (configuration : Configuration) (label : String) : CommandResult :=
  match command, options.outputPath? with
  | .showTable, _ =>
    { shown := .ok (Terminal.configurationTextWith pictures configuration label)
      records := [], store }
  | .exportTo, none =>
    let exported := configuration.exportAs options.formatDatum
    { shown := (exported.mapError CommandError.refused).map Terminal.exportText
      records := [], store }
  | .exportTo, some path =>
    match configuration.write store (.ofString path) options.formatDatum with
    | (.ok record, after) =>
      { shown := .ok (Terminal.writtenTextWith pictures configuration.size path)
        records := [record], store := after }
    | (.error error, after) => { shown := .error (.write error), records := [], store := after }

/-- The text that code points show as, unless there is a half among them. -/
def shownCodes (codes : List Text.CodePoint) : Except CommandError String :=
  match Text.Wide.ofCodes codes with
  | .plain text => .ok (Terminal.exportText text.toList)
  | .halved _ _ => .error .unprintable

/-- Shows or writes a configuration with halves that was read. -/
def Command.performWide (command : Command) (store : Store) (options : Options)
    (configuration : WideConfiguration) : CommandResult :=
  match command, options.outputPath? with
  | .showTable, _ => { shown := .error .unprintable, records := [], store }
  | .exportTo, none =>
    let exported := configuration.exportAs options.formatDatum
    { shown := (exported.mapError CommandError.refused).bind shownCodes, records := [], store }
  | .exportTo, some path =>
    match configuration.write store (.ofString path) options.formatDatum with
    | (.ok record, after) =>
      { shown := .ok (Terminal.writtenTextWith pictures configuration.size path)
        records := [record], store := after }
    | (.error error, after) => { shown := .error (.write error), records := [], store := after }

/-- Runs a command: reads its source, then shows or writes the configuration. -/
def Command.run (command : Command) (store : Store) (options : Options) : CommandResult :=
  match options.read store with
  | .error (.read (.halved reading)) =>
    let result := command.performWide pictures store options reading.configuration
    { result with records := reading.report :: result.records }
  | .error error => { shown := .error error, records := [], store }
  | .ok (reading, label) =>
    let result := command.perform pictures store options reading.configuration label
    { result with records := reading.report.toList ++ result.records }

end

/-- The name under which the command line reports. -/
def reporter : String := "nodeconf.cli"

/-- The report of a failed command. -/
def failureRecord (command : Command) (error : CommandError) : LogRecord :=
  { level := .error, reporter
    message := s!"{programName} {command.name} failed: {error.message}" }

/-- The lines of the reports that are shown from a level on. -/
def shownLog (threshold : LogLevel) (records : List LogRecord) : String :=
  String.join ((records.filter (LogRecord.isShown threshold)).map LogRecord.line)

section

variable (pictures : Terminal.Emoji.Pictures)

/-- The outcome of a command. -/
def CommandResult.outcome (result : CommandResult) (threshold : LogLevel)
    (command : Command) : Outcome :=
  match result.shown with
  | .ok text =>
    { ending := .exit 0, output := text
      diagnostics := shownLog threshold result.records, store := result.store }
  | .error error =>
    if error.showsHalf then
      { ending := .leftOpen, output := "", diagnostics := "", store := result.store }
    else if error.isForeseen then
      { ending := .exit 1, output := Terminal.errorTextWith pictures error.message
        diagnostics := shownLog threshold (result.records ++ [failureRecord command error])
        store := result.store }
    else
      { ending := .brokenOff error, output := ""
        diagnostics := shownLog threshold result.records, store := result.store }

/-- The outcome of a run that ends before a command. -/
def Stop.outcome (store : Store) : Stop -> Outcome
  | .help scope => { ending := .exit 0, output := scope.help, diagnostics := "", store }
  | .version =>
    { ending := .exit 0, output := s!"{programName} v{programVersion}\n", diagnostics := ""
      store }
  | .usage scope error =>
    { ending := .exit 2, output := "", diagnostics := scope.usageReport error, store }

/-- The outcome of an invocation. Without a command there is the help page. -/
def Invocation.outcome (invocation : Invocation) (store : Store) : Outcome :=
  match invocation.command with
  | none => Stop.outcome store (.help .program)
  | some command =>
    (command.run pictures store invocation.options).outcome pictures
      invocation.options.threshold command

/-- Runs the program. Without arguments it introduces itself. -/
def run (store : Store) (arguments : List String) : Outcome :=
  if arguments.isEmpty then
    let header := Terminal.headerText s!"NodeConf v{programVersion}"
    { ending := .exit 0, output := header ++ Scope.program.help, diagnostics := "", store }
  else
    match Invocation.ofArguments arguments with
    | .error stop => stop.outcome store
    | .ok invocation => invocation.outcome pictures store

end

/-- The configuration that the options name a source of, as a wide one. -/
def Options.wideConfiguration? (options : Options) (store : Store) : Option WideConfiguration :=
  match options.read store with
  | .ok (reading, _) => some reading.configuration.wide
  | .error (.read (.halved reading)) => some reading.configuration
  | .error _ => none

/-- The stores that a run passes through. Only an export to a file changes the store. -/
def stages (store : Store) (arguments : List String) : List Store :=
  match Invocation.ofArguments arguments with
  | .ok { options, command := some .exportTo } =>
    match options.wideConfiguration? store, options.outputPath? with
    | some configuration, some path =>
      configuration.writeStages store (.ofString path) options.formatDatum
    | _, _ => [store]
  | _ => [store]

/-- The outcome of a run that the user interrupts when it has come to some stage, or at its
end if it has not so many. What it has shown by then is left out. -/
def interrupted (store : Store) (arguments : List String) (stage : Nat) : Outcome :=
  let passed := stages store arguments
  { ending := .exit 1, output := "\nTerminated by user.\n", diagnostics := ""
    store := (passed[stage]?.or passed.getLast?).getD store }

end Roster.CommandLine
