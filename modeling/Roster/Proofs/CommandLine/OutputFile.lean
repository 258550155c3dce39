import Roster.Proofs.CommandLine.Exporting
import Roster.Proofs.CommandLine.OutputOption
import Roster.Proofs.Export.ReadBack

/-!
# The output file

An export that is given an output writes a file, or it fails. It does so for every output but
one: an empty one counts as none. With it the export is shown on the screen instead, and the
run ends as if all were well.
-/

namespace Roster.CommandLine

open Roster.Storage (Path Store)
open Roster.Text (CodePoint)

/-- The options read a configuration, and name a format in which it is exported as a text. -/
structure Options.Exports (options : Options) (store : Store) (configuration : WideConfiguration)
    (content : List Char) : Prop where
  source : options.wideConfiguration? store = some configuration
  exported : configuration.exportAs options.formatDatum = .ok (content.map .char)

/-- An output is honoured: a run that ends well has left the file that it names, which holds the
export, and shows nothing but how many entries were written. -/
def HonoursOutput (pictures : Terminal.Emoji.Pictures) (options : Options) (store : Store)
    (output : String) (outcome : Outcome) : Prop :=
  outcome.ending = .exit 0 → ∃ configuration content,
    options.Exports store configuration content ∧
    HoldsText outcome.store (.ofString output) content ∧
    outcome.output = Terminal.writtenTextWith pictures configuration.size output

variable {pictures : Terminal.Emoji.Pictures} {store : Store} {arguments : List String}
  {options : Options} {output : String}

/-- The output file is the output that is set, unless it is empty. -/
theorem Options.outputPath?_eq_some (given : options.output = some output)
    (named : output ≠ "") : options.outputPath? = some output := by
  simp [outputPath?, given, named]

theorem Options.outputPath?_eq_none (given : options.output = some "") :
    options.outputPath? = none := by
  simp [outputPath?, given]

/-- No file stands where an empty path leads, for that is the working directory. -/
theorem not_holdsText_empty (content : List Char) : ¬HoldsText store (.ofString "") content := by
  rintro ⟨-, isFile⟩
  cases isFile

/-- A file that was written holds the export. -/
theorem holdsText_of_write {configuration : WideConfiguration} {target : Path} {format : Datum}
    {record : LogRecord} (written : (configuration.write store target format).1 = .ok record) :
    ∃ content : List Char, configuration.exportAs format = .ok (content.map .char) ∧
      HoldsText (configuration.write store target format).2 target content := by
  obtain ⟨_, temporary, _, -, beside, noNul, -⟩ :=
    WideConfiguration.exists_replace_of_write written
  obtain ⟨_, codes, bytes, location, scratch, -, exported, encoded, -, -, found, replaced⟩ :=
    WideConfiguration.completes_of_write written
  obtain ⟨content, rfl⟩ :=
    CodePoint.exists_chars (Text.Utf8.exists_encodeCodes_iff.1 ⟨bytes, encoded⟩)
  obtain rfl := Except.ok.inj ((Text.Utf8.encodeCodes_chars content).symm.trans encoded)
  exact ⟨content, exported, hasNul_of_temporary beside noNul,
    Store.read_of_file found replaced.inPlace⟩

/-- A run that ends well has made an export, and has written it to its output file. -/
theorem exports_of_exit
    (asked : Invocation.ofArguments arguments = .ok { options, command := some .exportTo })
    (ending : (run pictures store arguments).ending = .exit 0) :
    ∃ configuration content, options.Exports store configuration content ∧
      ∀ path, options.outputPath? = some path →
        HoldsText (run pictures store arguments).store (.ofString path) content ∧
          (run pictures store arguments).output =
            Terminal.writtenTextWith pictures configuration.size path := by
  rw [run_of_asked asked] at ending ⊢
  have shown := shown_of_exit ending
  generalize (CommandResult.outcome _ _ _ _).output = text at shown ⊢
  rw [store_outcome]
  cases source : options.wideConfiguration? store with
  | none =>
      obtain ⟨error, failed, -⟩ := @run_of_noConfiguration pictures .exportTo _ _ source
      cases failed.symm.trans shown
  | some configuration =>
      cases named : options.outputPath? with
      | none =>
          obtain ⟨content, exported, -⟩ := (shown_exportTo_iff source named).1 shown
          exact ⟨configuration, content, ⟨source, exported⟩, fun path isPath => by cases isPath⟩
      | some path =>
          obtain ⟨shows, same⟩ := @run_of_configuration pictures _ _ _ _ source named
          rw [same]
          obtain ⟨record, isWritten, isText⟩ := map_eq_ok.1 (shows.symm.trans shown)
          obtain ⟨content, exported, holds⟩ := holdsText_of_write (mapError_eq_ok.1 isWritten)
          refine ⟨configuration, content, ⟨source, exported⟩, fun other isPath => ?_⟩
          obtain rfl := Option.some.inj isPath
          exact ⟨holds, isText.symm⟩

/-- An empty output is honoured only by a run that does not end well. -/
theorem not_honoursOutput {outcome : Outcome} (ending : outcome.ending = .exit 0) :
    ¬HonoursOutput pictures options store "" outcome := by
  intro honours
  obtain ⟨-, content, -, holds, -⟩ := honours ending
  exact not_holdsText_empty content holds

/-- In an accepted argument list of an export, an output that is given is honoured, whatever
stands in the store, exactly if it is not empty or there is nothing to export. An empty output
leaves the store alone, and the export is shown on the screen. -/
theorem output_honoured_iff
    (asked : Invocation.ofArguments arguments = .ok { options, command := some .exportTo }) :
    ∃ front others words, arguments = front ++ Command.exportTo.name :: others ∧
      IsLeading front ∧ wordsOfArguments (.command .exportTo) others = .ok words ∧
      (Occurs (.command .exportTo) .output others → ∃ output, GivesOutput words output) ∧
      ∀ output, GivesOutput words output → ∀ pictures store,
        (HonoursOutput pictures options store output (run pictures store arguments) ↔
          output ≠ "" ∨ ¬∃ configuration content,
            options.Exports store configuration content) ∧
        (output = "" → ∀ configuration content,
          options.Exports store configuration content →
            (run pictures store arguments).ending = .exit 0 ∧
              (run pictures store arguments).store = store ∧
              (run pictures store arguments).output = Terminal.exportText content) := by
  obtain ⟨front, others, words, split, leading, areWords, occurs, given⟩ :=
    output_of_ofArguments asked
  refine ⟨front, others, words, split, leading, areWords, occurs,
    fun output gives pictures store => ?_⟩
  have isOutput := given output gives
  have shows (unnamed : output = "") (configuration : WideConfiguration) (content : List Char)
      (exports : options.Exports store configuration content) :
      (run pictures store arguments).ending = .exit 0 ∧
        (run pictures store arguments).store = store ∧
        (run pictures store arguments).output = Terminal.exportText content := by
    rw [unnamed] at isOutput
    exact run_shows_export asked (Options.outputPath?_eq_none isOutput) exports.source
      exports.exported
  refine ⟨⟨fun honours => ?_, ?_⟩, shows⟩
  · by_contra neither
    obtain ⟨unnamed, exportable⟩ := not_or.1 neither
    obtain ⟨configuration, content, exports⟩ := not_not.1 exportable
    obtain rfl := not_not.1 unnamed
    exact not_honoursOutput (shows rfl _ _ exports).1 honours
  · intro exception ending
    obtain ⟨configuration, content, exports, written⟩ := exports_of_exit asked ending
    have named := exception.resolve_right (not_not.2 ⟨configuration, content, exports⟩)
    obtain ⟨holds, shown⟩ := written output (Options.outputPath?_eq_some isOutput named)
    exact ⟨configuration, content, exports, holds, shown⟩

/-- An argument list that gives two outputs, the second with its name abbreviated. -/
def twoOutputs : List String := ["export", "node1", "-ox", "--outp=out"]

/-- The options that these arguments set. -/
def lastOutput : Options := { source := some "node1", output := some "out" }

/-- The second of two outputs is honoured by a run that ends well. -/
theorem output_honoured_last :
    Invocation.ofArguments twoOutputs = .ok { options := lastOutput, command := some .exportTo } ∧
      HonoursOutput Terminal.Emoji.known lastOutput .empty "out"
        (run Terminal.Emoji.known .empty twoOutputs) ∧
      (run Terminal.Emoji.known .empty twoOutputs).ending = .exit 0 := by
  have asked : Invocation.ofArguments twoOutputs =
      .ok { options := lastOutput, command := some .exportTo } := by decide +kernel
  obtain ⟨front, others, words, split, -, areWords, -, honoured⟩ := output_honoured_iff asked
  obtain rfl : ["node1", "-ox", "--outp=out"] = others := by
    cases front with
    | nil => exact (List.cons.inj split).2
    | cons first rest =>
        have again : "export" ∈ ["node1", "-ox", "--outp=out"] := by
          rw [(List.cons.inj split).2]
          exact List.mem_append_right _ List.mem_cons_self
        exact absurd again (by decide)
  have gives : GivesOutput words "out" := by
    obtain rfl := Except.ok.inj ((by decide +kernel :
      wordsOfArguments (.command .exportTo) ["node1", "-ox", "--outp=out"] =
        .ok [⟨"node1", .plain⟩, ⟨"-ox", .option .output true (some ['x'])⟩,
          ⟨"--outp=out", .option .output false (some "out".toList)⟩]).symm.trans areWords)
    change GivesOutput ([_, _] ++ [_]) (String.ofList "out".toList)
    exact .attached [_, _] rfl (List.forall_mem_nil _)
  refine ⟨asked, ((honoured _ gives Terminal.Emoji.known .empty).1).2 (.inl (by decide)), ?_⟩
  have read : lastOutput.read .empty =
      .ok (Reading.counted ⟨[⟨0, "node1"⟩]⟩ "string source", "string") := by
    rfl
  have shown : (Command.exportTo.run Terminal.Emoji.known .empty lastOutput).shown =
      .ok (Terminal.writtenText 1 "out") := by
    rw [run_of_ok read]
    rfl
  rw [run_of_asked asked]
  exact exit_of_shown shown

/-- The arguments of an export with an empty output. -/
def emptyOutput : List String := ["export", "a", "-o", ""]

/-- An empty output is not honoured: the run ends well, and no file holds the export. -/
theorem output_not_honoured_empty :
    ∃ options words,
      Invocation.ofArguments emptyOutput = .ok { options, command := some .exportTo } ∧
      wordsOfArguments (.command .exportTo) ["a", "-o", ""] = .ok words ∧
      GivesOutput words "" ∧
      ¬HonoursOutput Terminal.Emoji.known options .empty ""
        (run Terminal.Emoji.known .empty emptyOutput) := by
  have asked : Invocation.ofArguments emptyOutput =
      .ok { options := { source := some "a", output := some "" },
            command := some .exportTo } := by decide +kernel
  have source : Options.wideConfiguration? { source := some "a", output := some "" } .empty =
      some { descriptors := ["a"] } := rfl
  have shows := @run_shows_export Terminal.Emoji.known _ _ _ asked rfl _ source
    (WideConfiguration.toYaml { descriptors := ["a"] }) rfl
  exact ⟨_, _, asked, rfl, .behind [_] rfl (by simp [Word.Names]),
    not_honoursOutput shows.1⟩

end Roster.CommandLine
