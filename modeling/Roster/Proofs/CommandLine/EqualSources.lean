import Roster.Proofs.CommandLine.Ending
import Roster.Proofs.CommandLine.PlainWords
import Roster.Proofs.Export.AllOrNothing
import Roster.Proofs.Source.Listing

/-!
# Equal sources

Descriptors can be given one by one behind an option, together as the source, or in the lines
of a plain text file. However they are given, an export to a file ends the same way: the three
readers give one configuration, and from there on nothing tells the sources apart.
-/

namespace Roster.CommandLine

open Roster.Storage (Store)

/-- How descriptors are given on the command line. -/
inductive GivenSource where
  /-- Each as an argument of its own. -/
  | separately (descriptors : List String)
  /-- All in one argument. -/
  | together (text : String)
  /-- In a plain text file. -/
  | inFile (path : String)

namespace GivenSource

/-- The arguments that give descriptors. -/
def arguments : GivenSource → List String
  | .separately descriptors => "--nodes" :: descriptors
  | .together text => [text]
  | .inFile path => ["--file", path]

/-- The words of these arguments behind the export command. -/
def words : GivenSource → List Word
  | .separately descriptors =>
      { text := "--nodes", role := .option .nodes false none } :: plainWords descriptors
  | .together text => plainWords [text]
  | .inFile path => { text := "--file", role := .option .file false none } :: plainWords [path]

/-- The options that these words set. -/
def options : GivenSource → Options
  | .separately descriptors => { nodes := some descriptors }
  | .together text => { source := some text }
  | .inFile path => { file := some path }

/-- What is read from these options. -/
def read (store : Store) : GivenSource → Except ReadError Reading
  | .separately descriptors => readArguments (descriptors.map Datum.text)
  | .together text => readText text
  | .inFile path => readPlainFile store (.ofString path)

/-- How a reading from these options is labelled. -/
def label : GivenSource → String
  | .separately _ => "arguments"
  | .together _ => "string"
  | .inFile path => path

/-- There is something to give, and no hyphen stands in front of it. -/
def IsReadable : GivenSource → Prop
  | .separately descriptors =>
      descriptors ≠ [] ∧ ∀ descriptor ∈ descriptors, IsPlain descriptor
  | .together text => IsPlain text
  | .inFile path => IsPlain path

end GivenSource

section Arguments

variable {source : GivenSource} {format : Format} {output : String}

/-- The arguments that name the format and the file of an export. -/
def targetArguments (format : Format) (output : String) : List String :=
  ["--format", format.name, "-o", output]

/-- The arguments of an export to a file. -/
def exportArguments (source : GivenSource) (format : Format) (output : String) : List String :=
  Command.exportTo.name :: (source.arguments ++ targetArguments format output)

/-- The words of the arguments that name the format and the file. -/
def targetWords (format : Format) (output : String) : List Word :=
  [{ text := "--format", role := .option .format false none },
    { text := format.name, role := .plain },
    { text := "-o", role := .option .output true none }, { text := output, role := .plain }]

/-- The options of an export to a file. -/
def exportOptions (source : GivenSource) (format : Format) (output : String) : Options :=
  { source.options with
    format := some format.name
    output := some output }

theorem isPlain_formatName (format : Format) : IsPlain format.name := by
  unfold IsPlain
  cases format <;> decide

/-- In front of the command the options of an export are not known. -/
theorem roleOf_program_exportOption {name : String}
    (isName : name ∈ ["--nodes", "--file", "--format", "-o"]) :
    roleOf .program name = .ok .unknownOption := by
  revert name
  decide +kernel

/-- Arguments have words if each of them has a role. -/
theorem exists_wordsOfArguments {scope : Scope} {arguments : List String}
    (haveRoles : ∀ argument ∈ arguments, ∃ role, roleOf scope argument = .ok role) :
    ∃ words, wordsOfArguments scope arguments = .ok words := by
  induction arguments with
  | nil => exact ⟨[], rfl⟩
  | cons argument others inductionHypothesis =>
      by_cases separates : argument = separatorText
      · exact ⟨_, by rw [wordsOfArguments, if_pos separates]⟩
      · obtain ⟨role, isRole⟩ := haveRoles argument List.mem_cons_self
        obtain ⟨words, areWords⟩ := inductionHypothesis fun other member =>
          haveRoles other (List.mem_cons_of_mem _ member)
        exact ⟨_, wordsOfArguments_cons separates isRole areWords⟩

/-- Each argument of an export is plain or the name of an option. -/
theorem mem_exportArguments (readable : source.IsReadable) (plainOutput : IsPlain output)
    {argument : String} (member : argument ∈ source.arguments ++ targetArguments format output) :
    IsPlain argument ∨ argument ∈ ["--nodes", "--file", "--format", "-o"] := by
  rcases List.mem_append.1 member with inSource | inTarget
  · cases source with
    | separately descriptors =>
        rcases List.mem_cons.1 inSource with rfl | isDescriptor
        · exact .inr (by simp)
        · exact .inl (readable.2 argument isDescriptor)
    | together text => exact .inl (List.mem_singleton.1 inSource ▸ readable)
    | inFile path =>
        rcases List.mem_cons.1 inSource with rfl | isPath
        · exact .inr (by simp)
        · exact .inl (List.mem_singleton.1 isPath ▸ readable)
  · simp only [targetArguments, List.mem_cons, List.not_mem_nil, or_false] at inTarget
    rcases inTarget with rfl | rfl | rfl | rfl
    · exact .inr (by simp)
    · exact .inl (isPlain_formatName format)
    · exact .inr (by simp)
    · exact .inl plainOutput

/-- The words of the arguments that give descriptors. -/
theorem wordsOfArguments_source (readable : source.IsReadable) {others : List String}
    {words : List Word} (areWords : wordsOfArguments (.command .exportTo) others = .ok words) :
    wordsOfArguments (.command .exportTo) (source.arguments ++ others) =
      .ok (source.words ++ words) := by
  cases source with
  | separately descriptors =>
      exact wordsOfArguments_cons (by decide) (by decide +kernel)
        (wordsOfArguments_plain_append readable.2 areWords)
  | together text =>
      exact wordsOfArguments_plain_append (List.forall_mem_singleton.2 readable) areWords
  | inFile path =>
      exact wordsOfArguments_cons (by decide) (by decide +kernel)
        (wordsOfArguments_plain_append (List.forall_mem_singleton.2 readable) areWords)

/-- The words of the arguments that name the format and the file. -/
theorem wordsOfArguments_target (format : Format) (plainOutput : IsPlain output) :
    wordsOfArguments (.command .exportTo) (targetArguments format output) =
      .ok (targetWords format output) := by
  have plainFormat := isPlain_formatName format
  have outputWord := @wordsOfArguments_cons (.command .exportTo) [] [] _ _
    plainOutput.ne_separator (roleOf_of_isPlain _ plainOutput) rfl
  have isOutput : roleOf (.command .exportTo) "-o" = .ok (.option .output true none) := by
    decide +kernel
  have behindFormat := wordsOfArguments_cons (by decide) isOutput outputWord
  have formatWord := wordsOfArguments_cons plainFormat.ne_separator
    (roleOf_of_isPlain _ plainFormat) behindFormat
  exact wordsOfArguments_cons (by decide) (by decide +kernel) formatWord

/-- The words that give descriptors set their option, whatever option stands behind them. -/
theorem readWords_givenSource (readable : source.IsReadable) {word : Word}
    (notPlain : word.role ≠ .plain) (notSeparator : word.role ≠ .separator) (rest : List Word) :
    readWords (.command .exportTo) .anything (.start {}) (source.words ++ word :: rest) =
      readWords (.command .exportTo) .anything (.start source.options) (word :: rest) := by
  cases source with
  | separately descriptors => exact readWords_option_values rfl readable.1 notPlain rfl
  | together text => exact readWords_source rfl notSeparator rfl
  | inFile path => exact readWords_option_value rfl rfl

/-- The words that name the format and the file set both options. -/
theorem readWords_target (source : GivenSource) (format : Format) (output : String) :
    readWords (.command .exportTo) .anything (.start source.options)
        (targetWords format output) = .ok (.start (exportOptions source format output)) := by
  have setsFormat : complete (.command .exportTo) source.options .format [format.name] =
      .ok { source.options with format := some format.name } := by
    cases format <;> rfl
  rw [targetWords, readWords_option_value rfl setsFormat, readWords_option_value rfl rfl]
  rfl

/-- The arguments of an export to a file ask for it. -/
theorem ofArguments_exportArguments (readable : source.IsReadable) (format : Format)
    (plainOutput : IsPlain output) :
    Invocation.ofArguments (exportArguments source format output) =
      .ok { options := exportOptions source format output, command := some .exportTo } := by
  obtain ⟨outerWords, outer⟩ : ∃ words, wordsOfArguments .program
      (source.arguments ++ targetArguments format output) = .ok words := by
    refine exists_wordsOfArguments fun argument member => ?_
    rcases mem_exportArguments readable plainOutput member with plain | isName
    · exact ⟨_, roleOf_of_isPlain .program plain⟩
    · exact ⟨_, roleOf_program_exportOption isName⟩
  refine ofArguments_command outer ?_
  rw [readScope, wordsOfArguments_source readable (wordsOfArguments_target format plainOutput)]
  exact (readWords_givenSource readable (by simp) (by simp) _).trans
    (readWords_target source format output)

end Arguments

section Running

variable {source : GivenSource} {format : Format} {output : String} {store : Store}
  {configuration : Configuration}

/-- How an export of a configuration to a file ends: it says how many entries it wrote, or why
it could not. -/
def exportOutcome (pictures : Terminal.Emoji.Pictures) (store : Store)
    (configuration : Configuration) (format : Format) (output : String) : Outcome :=
  match configuration.write store (.ofString output) (.text format.name) with
  | (.ok _, after) =>
    { ending := .exit 0, output := Terminal.writtenTextWith pictures configuration.size output
      diagnostics := "", store := after }
  | (.error error, after) =>
    { ending := .exit 1, output := Terminal.errorTextWith pictures error.message
      diagnostics := (failureRecord .exportTo (.write error)).line, store := after }

/-- The options of an export read the source that they name. -/
theorem read_exportOptions (source : GivenSource) (format : Format) (output : String)
    (store : Store) :
    (exportOptions source format output).read store =
      ((source.read store).mapError CommandError.read).map fun reading =>
        (reading, source.label) := by
  cases source <;> rfl

/-- Once its descriptors are read, an export does not depend on where they come from. -/
theorem run_exportArguments (pictures : Terminal.Emoji.Pictures) (readable : source.IsReadable)
    (plainOutput : IsPlain output) (named : output ≠ "") {origin : String}
    (read : source.read store = .ok (Reading.counted configuration origin)) :
    run pictures store (exportArguments source format output) =
      exportOutcome pictures store configuration format output := by
  have readSource : (exportOptions source format output).read store =
      .ok (Reading.counted configuration origin, source.label) := by
    rw [read_exportOptions, read]
    rfl
  have noLevel : (exportOptions source format output).threshold = .warning := by
    cases source <;> rfl
  have toFile : (exportOptions source format output).outputPath? = some output := by
    simp [Options.outputPath?, exportOptions, named]
  have inFormat : (exportOptions source format output).formatDatum = .text format.name := rfl
  rw [run_of_asked (ofArguments_exportArguments readable format plainOutput), noLevel,
    run_of_ok readSource, exportOutcome]
  simp only [Command.perform, toFile, inFormat, Reading.counted]
  rcases written : configuration.write store (.ofString output) (.text format.name) with
    ⟨error | record, after⟩
  · have reported := isReported_of_write (congrArg Prod.fst written)
    simp [CommandResult.outcome, reported.noHalf, reported.foreseen, CommandError.message, shownLog,
      LogRecord.isShown, Reading.countRecord, LogLevel.rank, failureRecord]
  · obtain rfl := Configuration.record_of_write (congrArg Prod.fst written)
    simp [CommandResult.outcome, shownLog, LogRecord.isShown, Reading.countRecord, LogLevel.rank,
      writtenRecord]

/-- Descriptors that can be given in every way. A hyphen in front would make an option, and in
a file a number sign would start a comment and a byte order mark would be dropped. -/
structure AreGivable (descriptors : List String) : Prop where
  nonempty : descriptors ≠ []
  valid : ∀ descriptor ∈ descriptors, IsDescriptor descriptor
  plain : ∀ descriptor ∈ descriptors, IsPlain descriptor
  noComment : ∀ descriptor ∈ descriptors, Configuration.looksLikeComment descriptor = false
  noMark : ∀ first ∈ descriptors.head?, first.toList.head? ≠ some Text.Utf8.markCharacter

/-- No hyphen stands in front of descriptors with spaces in between. -/
theorem AreGivable.isPlain_intercalate {descriptors : List String}
    (givable : AreGivable descriptors) : IsPlain (" ".intercalate descriptors) := by
  obtain ⟨first, others, rfl⟩ := List.exists_cons_of_ne_nil givable.nonempty
  exact Roster.CommandLine.isPlain_intercalate
    (givable.valid first List.mem_cons_self).nonempty (givable.plain first List.mem_cons_self)
    others

/-- An export to a file ends the same way, and leaves the same files, whether its descriptors
are given one by one, together in one argument, or in the lines of a file. They may be any
descriptors that can be given in these ways, also ones that read like a command or a format. -/
theorem export_sources_agree (pictures : Terminal.Emoji.Pictures) (store : Store)
    {descriptors : List String} (givable : AreGivable descriptors) (format : Format)
    {output : String} (plainOutput : IsPlain output) (named : output ≠ "")
    {input : String} (plainInput : IsPlain input) {text : List Char}
    (holds : HoldsText store (.ofString input) text) (listing : IsListing descriptors text) :
    ∃ configuration, Configuration.ofDescriptors descriptors = .ok configuration ∧
      run pictures store (exportArguments (.separately descriptors) format output) =
        exportOutcome pictures store configuration format output ∧
      run pictures store (exportArguments (.together (" ".intercalate descriptors)) format output) =
        exportOutcome pictures store configuration format output ∧
      run pictures store (exportArguments (.inFile input) format output) =
        exportOutcome pictures store configuration format output := by
  obtain ⟨configuration, added, -, -⟩ := Configuration.exists_ofDescriptors givable.valid
  have counted (origin : String) : countedReading origin (Configuration.ofDescriptors descriptors) =
      .ok (Reading.counted configuration origin) := by
    rw [added]
    rfl
  have separately := (readArguments_texts descriptors).trans (counted "argument list")
  have together := (readText_intercalate givable.valid).trans (counted "string source")
  have inFile := (listing.readPlainFile givable.noMark givable.noComment holds).trans
    (counted (Storage.Path.ofString input).toString)
  exact ⟨configuration, added,
    run_exportArguments pictures ⟨givable.nonempty, givable.plain⟩ plainOutput named separately,
    run_exportArguments pictures givable.isPlain_intercalate plainOutput named together,
    run_exportArguments pictures plainInput plainOutput named inFile⟩

end Running

/-- Descriptors that read like a command, a format, a number and an assignment. -/
def misleadingDescriptors : List String := ["show", "text", "10", "a=b"]

/-- A file with these descriptors in its lines, which end in several ways. -/
def misleadingListing : List Char := "show\r\n text\n10\r\ta=b".toList

theorem export_sources_agree_misleading :
    HoldsText (storeHolding "nodes" misleadingListing) (.ofString "nodes") misleadingListing ∧
      IsListing misleadingDescriptors misleadingListing ∧
      ∃ configuration, Configuration.ofDescriptors misleadingDescriptors = .ok configuration ∧
        run Terminal.Emoji.known (storeHolding "nodes" misleadingListing)
            ["export", "--nodes", "show", "text", "10", "a=b", "--format", "text", "-o", "out"] =
          exportOutcome Terminal.Emoji.known (storeHolding "nodes" misleadingListing)
            configuration .text "out" ∧
        run Terminal.Emoji.known (storeHolding "nodes" misleadingListing)
            ["export", "show text 10 a=b", "--format", "text", "-o", "out"] =
          exportOutcome Terminal.Emoji.known (storeHolding "nodes" misleadingListing)
            configuration .text "out" ∧
        run Terminal.Emoji.known (storeHolding "nodes" misleadingListing)
            ["export", "--file", "nodes", "--format", "text", "-o", "out"] =
          exportOutcome Terminal.Emoji.known (storeHolding "nodes" misleadingListing)
            configuration .text "out" := by
  have holds : HoldsText (storeHolding "nodes" misleadingListing) (.ofString "nodes")
      misleadingListing := ⟨by decide +kernel, by decide +kernel⟩
  have listing : IsListing misleadingDescriptors misleadingListing := by decide +kernel
  have givable : AreGivable misleadingDescriptors :=
    { nonempty := List.cons_ne_nil _ _
      valid := by decide +kernel
      plain := by simp [misleadingDescriptors, IsPlain]
      noComment := by simp [misleadingDescriptors, Configuration.looksLikeComment]
      noMark := by simp [misleadingDescriptors, Text.Utf8.markCharacter] }
  have plainOutput : IsPlain "out" := by simp [IsPlain]
  have plainInput : IsPlain "nodes" := by simp [IsPlain]
  exact ⟨holds, listing,
    export_sources_agree _ _ givable .text plainOutput (by decide) plainInput holds listing⟩

end Roster.CommandLine
