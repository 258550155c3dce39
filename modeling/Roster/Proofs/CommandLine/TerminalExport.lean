import Roster.Proofs.CommandLine.Exporting
import Roster.Proofs.Export.CroppedDocument
import Roster.Proofs.Export.TextFormat
import Roster.Proofs.Source.Built
import Roster.Proofs.Terminal.CroppedExport
import Roster.Proofs.Terminal.ShownText

/-!
# Exporting to the terminal

An export without an output file is shown on the screen, and what is shown is not always the
export: a line that does not fit is cut, characters that the terminal acts on are left out,
and so is a byte order mark in front. What is shown reads back as the configuration, in either
format, exactly if nothing of this happens.
-/

namespace Roster

open Roster.Storage (Path Store)

/-- The reader of the files that are written in a format. -/
def Format.reader (path : Path) : Format → Reader
  | .yaml => .ofYamlFile path
  | .text => .plainFile path

/-- A configuration is read from a file in a format. -/
def ReadsBack (format : Format) (store : Store) (path : Path) (configuration : Configuration) :
    Prop :=
  ∃ reading, ((format.reader path).read store).1 = .ok reading ∧
    reading.configuration = configuration

namespace Configuration

/-- A rendered descriptor does not end in a newline. -/
theorem getLast?_scalar_ne (column : Nat) {text : List Char} (nonempty : text ≠ [])
    (unbroken : Text.Unbroken text) :
    Yaml.Presentation.scalar column text ≠ [] ∧
      (Yaml.Presentation.scalar column text).getLast? ≠ some '\n' := by
  rcases Yaml.Presentation.scalar_cases column text with ⟨-, -, form⟩ | ⟨-, -, form⟩ | form
  · rw [form]
    refine ⟨nonempty, fun ends => ?_⟩
    cases unbroken '\n' (List.mem_of_getLast? ends)
  · rw [form, List.getLast?_concat]
    exact ⟨by simp, by simp⟩
  · rw [form, List.getLast?_concat]
    exact ⟨by simp, by simp⟩

theorem descriptors_ne_nil {configuration : Configuration}
    (nonempty : configuration.entries ≠ []) : configuration.descriptors ≠ [] :=
  fun none => nonempty (List.map_eq_nil_iff.1 none)

/-- The document of a configuration with entries ends in one newline. -/
theorem endsOnce_toYaml {configuration : Configuration} (built : configuration.Built)
    (nonempty : configuration.entries ≠ []) : Terminal.EndsOnce configuration.toYaml := by
  have isEmpty : configuration.entries.isEmpty = false := by simpa using nonempty
  obtain ⟨front, last, split⟩ :=
    (List.eq_nil_or_concat' configuration.descriptors).resolve_left (descriptors_ne_nil nonempty)
  have valid := built.isDescriptor last (by simp [split])
  obtain ⟨written, ends⟩ := getLast?_scalar_ne itemColumn valid.nonempty valid.noBlank
  have endsOnce := Terminal.endsOnce_append
    (nodesKey.toList ++ ":\n".toList ++ front.flatMap yamlItem ++ "  - ".toList) written ends
  rw [toYaml, isEmpty, if_neg Bool.false_ne_true, split, List.flatMap_append,
    List.flatMap_singleton, yamlItem]
  simpa only [List.append_assoc] using endsOnce

/-- An export of a configuration with entries ends in one newline. -/
theorem endsOnce_exportIn {configuration : Configuration} (built : configuration.Built)
    (nonempty : configuration.entries ≠ []) {format : Format} {content : List Char}
    (exported : configuration.exportIn format = .ok content) : Terminal.EndsOnce content := by
  cases format with
  | yaml =>
      obtain rfl := Except.ok.inj exported
      exact endsOnce_toYaml built nonempty
  | text =>
      obtain ⟨-, rfl⟩ := toText_eq_ok exported
      exact endsOnce_descriptors (descriptors_ne_nil nonempty) built.isDescriptor

/-- A plain text that is read from the screen is the one that was exported exactly if it fits
whole. -/
theorem readsBack_text_iff {configuration : Configuration} (built : configuration.Built)
    (nonempty : configuration.entries ≠ []) {content : List Char}
    (exported : configuration.toText = .ok content) {saved : Store} {path : Path}
    (holds : HoldsText saved path (Terminal.exportText content).toList) :
    ReadsBack .text saved path configuration ↔ Terminal.FitsWhole content := by
  obtain ⟨noComment, rfl⟩ := toText_eq_ok exported
  obtain ⟨reading, read, builtReading, found⟩ := exists_read_plainFile holds
  rw [← plainDescriptors_exportText_iff (descriptors_ne_nil nonempty) built.isDescriptor
    noComment, ← found]
  constructor
  · rintro ⟨other, again, rfl⟩
    rw [show ((Reader.plainFile path).read saved).1 = .ok other from again] at read
    obtain rfl := Except.ok.inj read
    rfl
  · exact fun same => ⟨reading, read, builtReading.eq_of_descriptors built same⟩

/-- A document begins with the name of its key, not with a byte order mark. -/
theorem head?_toYaml_ne (configuration : Configuration) :
    configuration.toYaml.head? ≠ some Text.Utf8.markCharacter := by
  rw [head?_toYaml]
  decide

/-- The terminal acts on no character of a document. -/
theorem isSuppressed_of_mem_toYaml {configuration : Configuration} :
    ∀ c ∈ configuration.toYaml, Terminal.isSuppressed c = false := by
  intro c member
  have written := isEverWritten_of_mem_toYaml c member
  rw [Yaml.Presentation.isEverWritten, Bool.or_eq_true, beq_iff_eq, Bool.not_eq_true'] at written
  rcases written with rfl | noEscape
  · rfl
  · simp only [Yaml.Presentation.needsEscape, Bool.or_eq_false_iff, Bool.not_eq_false',
      Bool.or_eq_true, Bool.and_eq_true, beq_iff_eq, decide_eq_true_eq] at noEscape
    rw [Bool.eq_false_iff]
    intro suppressed
    simp only [Terminal.isSuppressed, Bool.or_eq_true, Bool.and_eq_true, beq_iff_eq,
      decide_eq_true_eq] at suppressed
    omega

/-- What is shown of a document is found in a file as it is. -/
theorem readFileText_cropped {configuration : Configuration} {shown : List Char}
    (cropped : Text.Cropped 0 configuration.toYaml shown) {store : Store} {path : Path}
    (holds : HoldsText store path shown) : readFileText store path = .ok shown := by
  have noReturn : '\r' ∉ shown := fun member => by
    rcases cropped.mem_or_eq_space member with inDocument | isSpace
    · cases isEverWritten_of_mem_toYaml _ inDocument
    · cases isSpace
  have noMark : shown.head? ≠ some Text.Utf8.markCharacter := by
    rw [cropped.head?_eq (by decide)]
    exact head?_toYaml_ne configuration
  rw [holds.readFileText, withoutMark_eq_self noMark, Text.unifyNewlines_of_not_mem noReturn]

/-- A document that is read from the screen is the one that was exported exactly if it fits
whole. -/
theorem readsBack_yaml_iff {configuration : Configuration} (built : configuration.Built)
    (nonempty : configuration.entries ≠ []) {saved : Store} {path : Path}
    (holds : HoldsText saved path (Terminal.exportText configuration.toYaml).toList) :
    ReadsBack .yaml saved path configuration ↔ Terminal.FitsWhole configuration.toYaml := by
  have endsOnce := endsOnce_toYaml built nonempty
  rw [← Terminal.exportText_eq_iff endsOnce]
  constructor
  · rintro ⟨reading, read, same⟩
    have cropped := Terminal.cropped_exportText endsOnce (head?_toYaml_ne configuration)
      isSuppressed_of_mem_toYaml
    have whole : (readYamlFile none saved path).1 = .ok reading := read
    rw [readYamlFile, readFileText_cropped cropped holds] at whole
    obtain ⟨document, loaded, ofDocument⟩ := bind_eq_ok.1 whole
    exact readsBack_cropped built nonempty cropped (mapError_eq_ok.1 loaded) ofDocument same
  · intro whole
    rw [whole] at holds
    exact ⟨_, read_yamlFile_toYaml built holds, rfl⟩

/-- An export that is read from the screen is the one that was made exactly if it fits whole. -/
theorem readsBack_iff {configuration : Configuration} (built : configuration.Built)
    (nonempty : configuration.entries ≠ []) {format : Format} {content : List Char}
    (exported : configuration.exportIn format = .ok content) {saved : Store} {path : Path}
    (holds : HoldsText saved path (Terminal.exportText content).toList) :
    ReadsBack format saved path configuration ↔ Terminal.FitsWhole content := by
  cases format with
  | yaml =>
      obtain rfl := Except.ok.inj exported
      exact readsBack_yaml_iff built nonempty holds
  | text => exact readsBack_text_iff built nonempty exported holds

end Configuration

namespace CommandLine

/-- An argument list asks for an export to the terminal in a format. -/
structure ExportsToTerminal (arguments : List String) (options : Options) (format : Format) :
    Prop where
  asked : Invocation.ofArguments arguments = .ok { options, command := some .exportTo }
  noOutput : options.outputPath? = none
  formatted : options.formatDatum = .text format.name

/-- A format is the one with its name. -/
theorem exportAs_name (configuration : Configuration) (format : Format) :
    configuration.exportAs (.text format.name) = configuration.exportIn format := by
  cases format <;> rfl

/-- A run that exports to the terminal shows the export, and leaves the store alone. -/
theorem run_exportsToTerminal (pictures : Terminal.Emoji.Pictures) {arguments : List String}
    {options : Options} {format : Format} (exports : ExportsToTerminal arguments options format)
    {store : Store} {reading : Reading} {label : String}
    (read : options.read store = .ok (reading, label)) {content : List Char}
    (exported : reading.configuration.exportIn format = .ok content) :
    (run pictures store arguments).ending = .exit 0 ∧
      (run pictures store arguments).store = store ∧
      (run pictures store arguments).output = Terminal.exportText content := by
  obtain ⟨asked, noOutput, formatted⟩ := exports
  have source : options.wideConfiguration? store = some reading.configuration.wide := by
    simp only [Options.wideConfiguration?, read]
  refine run_shows_export asked noOutput source ?_
  rw [formatted, Configuration.wide_exportAs, exportAs_name, exported]
  rfl

/-- What an export to the terminal shows is the export exactly if the export does not begin
with a byte order mark and each of its lines fits on the screen: the terminal acts on none of
its characters, and it has cells enough. In both formats, what is shown reads back as the
configuration exactly then. -/
theorem terminal_export_iff (pictures : Terminal.Emoji.Pictures) {arguments : List String}
    {options : Options} {format : Format} (exports : ExportsToTerminal arguments options format)
    {store : Store} {reading : Reading} {label : String}
    (read : options.read store = .ok (reading, label))
    (nonempty : reading.configuration.entries ≠ []) {content : List Char}
    (exported : reading.configuration.exportIn format = .ok content) {saved : Store} {path : Path}
    (holds : HoldsText saved path (run pictures store arguments).output.toList) :
    (run pictures store arguments).ending = .exit 0 ∧
    ((run pictures store arguments).output.toList = content ↔ Terminal.FitsWhole content) ∧
    (ReadsBack format saved path reading.configuration ↔ Terminal.FitsWhole content) := by
  have built : reading.configuration.Built := Options.gives_built_read options store _ read
  obtain ⟨ending, -, output⟩ := run_exportsToTerminal pictures exports read exported
  rw [output] at holds ⊢
  have endsOnce := Configuration.endsOnce_exportIn built nonempty exported
  exact ⟨ending, Terminal.exportText_eq_iff endsOnce,
    Configuration.readsBack_iff built nonempty exported holds⟩

/-- The store with what a run shows in a file. -/
def storeShowing (arguments : List String) : Store :=
  let outcome := run Terminal.Emoji.known .empty arguments
  Store.empty.set ["shown"] (.file (Text.Utf8.encode outcome.output.toList))

/-- What a run shows is found in that file. -/
theorem holdsText_storeShowing (arguments : List String) :
    HoldsText (storeShowing arguments) (.ofString "shown")
      (run Terminal.Emoji.known .empty arguments).output.toList :=
  IsFilePlace.holdsText ⟨by decide +kernel, by decide +kernel, by decide⟩ _

/-- What the options name as a text is read as the configuration of its words. -/
theorem read_source {text : String} {configuration : Configuration} (format : Option String)
    (store : Store)
    (added : Configuration.ofDescriptors (wordsOf text.toList) = .ok configuration) :
    Options.read { source := some text, format } store =
      .ok (Reading.counted configuration "string source", "string") := by
  simp only [Options.read, readText, added, countedReading]
  rfl

/-- Two short descriptors. -/
def shortNames : Configuration :=
  { entries := [{ index := 0, descriptor := "node1" }, { index := 1, descriptor := "node2" }] }

/-- What is shown of short descriptors as a document is the document, and reads back. -/
theorem terminal_export_short_names :
    ExportsToTerminal ["export", "node1 node2"] { source := some "node1 node2" } .yaml ∧
      Terminal.FitsWhole shortNames.toYaml ∧
      (run Terminal.Emoji.known .empty ["export", "node1 node2"]).ending = .exit 0 ∧
      (run Terminal.Emoji.known .empty ["export", "node1 node2"]).output.toList =
        shortNames.toYaml ∧
      ReadsBack .yaml (storeShowing ["export", "node1 node2"]) (.ofString "shown")
        shortNames := by
  have exports : ExportsToTerminal ["export", "node1 node2"] { source := some "node1 node2" }
      .yaml := ⟨by decide +kernel, rfl, rfl⟩
  have document : shortNames.toYaml = "nodes:\n  - node1\n  - node2\n".toList := by cbv
  have fits : Terminal.FitsWhole shortNames.toYaml := by
    rw [document]
    decide +kernel
  have read : Options.read { source := some "node1 node2" } .empty =
      .ok (Reading.counted shortNames "string source", "string") :=
    read_source none .empty (by decide +kernel)
  have result := terminal_export_iff Terminal.Emoji.known exports read (List.cons_ne_nil _ _) rfl
    (holdsText_storeShowing _)
  exact ⟨exports, fits, result.1, result.2.1.2 fits, result.2.2.2 fits⟩

/-- A descriptor that is wider than the screen. -/
def wideName : Configuration :=
  { entries := [{ index := 0, descriptor := String.ofList (List.replicate 100 'a') }] }

/-- The arguments that export it as plain text. -/
def wideArguments : List String :=
  ["export", String.ofList (List.replicate 100 'a'), "--format", "text"]

/-- What is shown of a wide descriptor is cut, and does not read back. -/
theorem terminal_export_cuts_wide_name :
    ExportsToTerminal wideArguments
        { source := some (String.ofList (List.replicate 100 'a')), format := some "text" }
        .text ∧
      (run Terminal.Emoji.known .empty wideArguments).ending = .exit 0 ∧
      ¬ReadsBack .text (storeShowing wideArguments) (.ofString "shown") wideName := by
  have exports : ExportsToTerminal wideArguments
      { source := some (String.ofList (List.replicate 100 'a')), format := some "text" }
      .text := ⟨by decide +kernel, rfl, rfl⟩
  have exported : wideName.toText = .ok (List.replicate 100 'a' ++ ['\n']) := by decide +kernel
  have read : Options.read
      { source := some (String.ofList (List.replicate 100 'a')), format := some "text" }
      .empty = .ok (Reading.counted wideName "string source", "string") :=
    read_source _ .empty (by decide +kernel)
  obtain ⟨ending, -, output⟩ := run_exportsToTerminal Terminal.Emoji.known exports read exported
  have built : wideName.Built := Options.gives_built_read _ _ _ read
  have holds := holdsText_storeShowing wideArguments
  rw [output] at holds
  refine ⟨exports, ending, ?_⟩
  rw [Configuration.readsBack_text_iff built (List.cons_ne_nil _ _) exported holds]
  decide +kernel

end CommandLine

end Roster
