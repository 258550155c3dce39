import Roster.Proofs.CommandLine.Exporting
import Roster.Proofs.Export.AllOrNothing

/-!
# Failing without a trace

Only an export to a file changes the store, and only if it comes through: what can fail does
so before the target is replaced, and what was left beside it is cleared away. There is one
exception, plain text with a half in it, for which an empty temporary file stays behind.

What a failing run shows is the line about its failure and nothing else, for the text of a
command is put together as a whole before any of it is shown. And a run that is interrupted on
the way has not come to the target yet, or has replaced it as a whole.
-/

namespace Roster.CommandLine

open Roster.Storage (Path Store Location)

/-- An argument list asks for an export to a file. -/
structure ExportsToFile (arguments : List String) (options : Options) (output : String) :
    Prop where
  asked : Invocation.ofArguments arguments = .ok { options, command := some .exportTo }
  named : options.outputPath? = some output

/-- An argument list asks for a command that fails. -/
inductive FailsWith (pictures : Terminal.Emoji.Pictures) (store : Store) (arguments : List String)
    (error : CommandError) : Prop where
  | intro {options : Options} {command : Command}
      (asked : Invocation.ofArguments arguments = .ok { options, command := some command })
      (failed : (command.run pictures store options).shown = .error error)

/-- A run opens the temporary file of its output, at a place, for plain text with a half in
it. -/
def StrandsAt (store : Store) (arguments : List String) (scratch : Location) : Prop :=
  ∃ options output configuration, ExportsToFile arguments options output ∧
    options.wideConfiguration? store = some configuration ∧
    configuration.StrandsAt store (.ofString output) options.formatDatum scratch

variable {pictures : Terminal.Emoji.Pictures}

/-- A command that ends with status 1 has failed, and shows the line about its failure. -/
theorem reports_of_ending {result : CommandResult} {threshold : LogLevel} {command : Command}
    (ending : (result.outcome pictures threshold command).ending = .exit 1) :
    ∃ error, result.shown = .error error ∧
      Reports pictures (result.outcome pictures threshold command) error.message := by
  cases shown : result.shown with
  | ok text => simp [CommandResult.outcome, shown] at ending
  | error error =>
      refine ⟨error, rfl, ending, ?_⟩
      cases half : error.showsHalf with
      | true => simp [CommandResult.outcome, shown, half] at ending
      | false =>
          cases foreseen : error.isForeseen with
          | true => simp [CommandResult.outcome, shown, half, foreseen]
          | false => simp [CommandResult.outcome, shown, half, foreseen] at ending

section Run

variable {store : Store} {arguments : List String}

/-- A run either comes to its command, or leaves the store alone and does not end with
status 1. -/
theorem run_cases (pictures : Terminal.Emoji.Pictures) (store : Store) (arguments : List String) :
    ((run pictures store arguments).store = store ∧
        (run pictures store arguments).ending ≠ .exit 1) ∨
      ∃ options command,
        Invocation.ofArguments arguments = .ok { options, command := some command } := by
  cases asked : Invocation.ofArguments arguments with
  | error stop =>
      left
      cases arguments with
      | nil => simp [run]
      | cons first others => cases stop <;> simp [run, asked, Stop.outcome]
  | ok invocation =>
      obtain ⟨options, commanded⟩ := invocation
      cases commanded with
      | some command => exact .inr ⟨options, command, rfl⟩
      | none =>
          cases arguments with
          | nil => exact .inl (by simp [run])
          | cons first others => exact .inl (by simp [run, asked, Invocation.outcome, Stop.outcome])

/-- A run that is not asked for an export to a file leaves the store alone. -/
theorem store_run_of_noFile
    (noFile : ¬∃ options output, ExportsToFile arguments options output) :
    (run pictures store arguments).store = store := by
  rcases run_cases pictures store arguments with ⟨same, -⟩ | ⟨options, command, asked⟩
  · exact same
  · rw [run_of_asked asked, store_outcome]
    refine store_run_of_noOutput store fun isExport => ?_
    subst isExport
    by_contra named
    obtain ⟨output, named⟩ := Option.ne_none_iff_exists'.1 named
    exact noFile ⟨options, output, asked, named⟩

/-- A run that leaves its temporary file ends with status 1, and leaves nothing else. -/
theorem run_of_strandsAt {scratch : Location} (strands : StrandsAt store arguments scratch) :
    (run pictures store arguments).ending = .exit 1 ∧
      (run pictures store arguments).store = store.set scratch (.file []) := by
  obtain ⟨options, output, configuration, exports, source, stranded⟩ := strands
  obtain ⟨⟨fault, failed⟩, left⟩ := WideConfiguration.write_of_strandsAt stranded
  obtain ⟨shown, same⟩ := @run_of_configuration pictures _ _ _ _ source exports.named
  rw [run_of_asked exports.asked, store_outcome, same, left]
  rw [failed] at shown
  exact ⟨(reports_outcome shown rfl rfl).ending, rfl⟩

/-- Without halves in its source, a run leaves no temporary file. -/
theorem not_strandsAt_of_read {options : Options} {output label : String} {reading : Reading}
    (exports : ExportsToFile arguments options output)
    (read : options.read store = .ok (reading, label)) (scratch : Location) :
    ¬StrandsAt store arguments scratch := by
  rintro ⟨other, otherOutput, configuration, ⟨asked, -⟩, source, stranded⟩
  obtain ⟨rfl, -⟩ := Invocation.mk.inj (Except.ok.inj (exports.asked.symm.trans asked))
  simp only [Options.wideConfiguration?, read] at source
  obtain rfl := Option.some.inj source
  exact Configuration.not_strandsAt scratch stranded

/-- A run that does not end well, and does not leave its temporary file, leaves the store as it
was, provided that nothing stands in the place of that file. -/
theorem store_run_of_failing
    (vacant : ∀ options output, ExportsToFile arguments options output → ∀ scratch,
      store.IsScratch (.ofString output) scratch → store.get? scratch = none)
    (noStrand : ∀ scratch, ¬StrandsAt store arguments scratch)
    (failing : (run pictures store arguments).ending ≠ .exit 0) :
    (run pictures store arguments).store = store := by
  by_cases toFile : ∃ options output, ExportsToFile arguments options output
  · obtain ⟨options, output, exports⟩ := toFile
    rw [run_of_asked exports.asked] at failing ⊢
    rw [store_outcome]
    cases source : options.wideConfiguration? store with
    | none =>
        obtain ⟨error, -, same⟩ := @run_of_noConfiguration pictures .exportTo _ _ source
        exact same
    | some configuration =>
        obtain ⟨shown, same⟩ := @run_of_configuration pictures _ _ _ _ source exports.named
        rw [same]
        cases outcome : (configuration.write store (.ofString output) options.formatDatum).1 with
        | ok record =>
            rw [outcome] at shown
            exact absurd (exit_of_shown shown) failing
        | error error =>
            refine WideConfiguration.write_store_of_error (vacant options output exports)
              (fun scratch stranded => ?_) outcome
            exact noStrand scratch ⟨options, output, configuration, exports, source, stranded⟩
  · exact store_run_of_noFile toFile

/-- Nothing standing where the temporary file of its output goes, a run that does not end well
leaves the store exactly as it was, and so does a run that is not asked for an export to a
file, unless it leaves that file: exactly if it opens it for plain text with a half in it. Then
it ends with status 1, and leaves the file without content and everything else as it was. A run
that ends with status 1 shows the line about the failure of its command and nothing else. The
output may be the file that is read. -/
theorem failure_leaves_no_trace_iff (pictures : Terminal.Emoji.Pictures) (store : Store)
    (arguments : List String)
    (vacant : ∀ options output, ExportsToFile arguments options output → ∀ scratch,
      store.IsScratch (.ofString output) scratch → store.get? scratch = none) :
    (((run pictures store arguments).ending ≠ .exit 0 ∨
          (¬∃ options output, ExportsToFile arguments options output) →
        (run pictures store arguments).store = store) ↔
      ∀ scratch, ¬StrandsAt store arguments scratch) ∧
    (∀ scratch, StrandsAt store arguments scratch →
      (run pictures store arguments).ending = .exit 1 ∧
        (run pictures store arguments).store = store.set scratch (.file [])) ∧
    ((run pictures store arguments).ending = .exit 1 →
      ∃ error, FailsWith pictures store arguments error ∧
        Reports pictures (run pictures store arguments) error.message) := by
  refine ⟨⟨fun traceless scratch strands => ?_, fun noStrand reason => ?_⟩,
    fun scratch strands => run_of_strandsAt strands, fun ending => ?_⟩
  · obtain ⟨ending, left⟩ := @run_of_strandsAt pictures _ _ _ strands
    have same := traceless (.inl (by simp [ending]))
    obtain ⟨options, output, configuration, exports, -, stranded⟩ := strands
    obtain ⟨temporary, beside, isPlace⟩ := stranded.opens
    have empty := vacant options output exports scratch ⟨temporary, beside, isPlace.leads⟩
    rw [left] at same
    rw [← same, Store.get?_set_same store (Store.ne_nil_of_noDirectory isPlace.free)] at empty
    cases empty
  · rcases reason with failing | noFile
    · exact store_run_of_failing vacant noStrand failing
    · exact store_run_of_noFile noFile
  · rcases run_cases pictures store arguments with ⟨-, other⟩ | ⟨options, command, asked⟩
    · exact absurd ending other
    · rw [run_of_asked asked] at ending ⊢
      obtain ⟨error, failed, reports⟩ := reports_of_ending ending
      exact ⟨error, ⟨asked, failed⟩, reports⟩

/-- On the way, a write only changes the place of its temporary file. -/
theorem get?_of_mem_writeStages {configuration : WideConfiguration} {target : Path}
    {format : Datum} {passed : Store}
    (member : passed ∈ configuration.writeStages store target format) {location : Location}
    (elsewhere : ¬store.IsScratch target location) :
    passed.get? location = store.get? location ∨
      passed = (configuration.write store target format).2 := by
  rw [WideConfiguration.writeStages, List.mem_append, List.mem_cons, List.mem_singleton] at member
  rcases member with (rfl | growing) | last
  · exact .inl rfl
  · left
    split at growing
    · rename_i content temporary _ beside
      split at growing
      · cases growing
      · obtain ⟨count, -, grown⟩ := List.mem_filterMap.1 growing
        obtain ⟨scratch, leads, free, rfl⟩ := Store.write_eq_ok (toOption_eq_some.1 grown)
        rw [Store.get?_set store (Store.ne_nil_of_noDirectory free)]
        refine if_neg ?_
        rintro rfl
        exact elsewhere ⟨temporary, beside, leads⟩
    · cases growing
  · exact .inr last

/-- An interrupted run leaves what one of its stages is. -/
theorem store_interrupted_mem (store : Store) (arguments : List String) (stage : Nat) :
    (interrupted store arguments stage).store = store ∨
      (interrupted store arguments stage).store ∈ stages store arguments := by
  dsimp only [interrupted]
  cases found : (stages store arguments)[stage]? with
  | some passed =>
      right
      rw [Option.some_or, Option.getD_some]
      exact List.mem_of_getElem? found
  | none =>
      cases last : (stages store arguments).getLast? with
      | some passed =>
          right
          rw [Option.none_or, Option.getD_some]
          exact List.mem_of_getLast? last
      | none => exact .inl rfl

/-- A run that is interrupted at any stage leaves at every place, but that of its temporary
file, what stood there before or what the whole run leaves there. -/
theorem interrupted_leaves_old_or_new (pictures : Terminal.Emoji.Pictures) (store : Store)
    (arguments : List String) (stage : Nat) {location : Location}
    (elsewhere : ∀ options output, ExportsToFile arguments options output →
      ¬store.IsScratch (.ofString output) location) :
    (interrupted store arguments stage).store.get? location = store.get? location ∨
      (interrupted store arguments stage).store.get? location =
        (run pictures store arguments).store.get? location := by
  rcases store_interrupted_mem store arguments stage with same | member
  · exact .inl (by rw [same])
  · generalize (interrupted store arguments stage).store = passed at member ⊢
    unfold stages at member
    split at member
    · rename_i options asked
      split at member
      · rename_i configuration output source named
        rcases get?_of_mem_writeStages member (elsewhere options output ⟨asked, named⟩) with
          before | rfl
        · exact .inl before
        · right
          rw [run_of_asked asked, store_outcome,
            (@run_of_configuration pictures _ _ _ _ source named).2]
      · exact .inl (by rw [List.mem_singleton.1 member])
    · exact .inl (by rw [List.mem_singleton.1 member])

/-- One free place is enough for an argument list, for it names one output. -/
theorem vacant_of_asked {options : Options} {output : String} {temporary : Path}
    {place : Location} (exports : ExportsToFile arguments options output)
    (beside : temporaryPath? (.ofString output) = some temporary)
    (leads : store.locate temporary = .ok place) (free : store.get? place = none) :
    ∀ options output, ExportsToFile arguments options output → ∀ scratch,
      store.IsScratch (.ofString output) scratch → store.get? scratch = none := by
  rintro other otherOutput ⟨alsoAsked, alsoNamed⟩ scratch ⟨path, besideToo, leadsToo⟩
  obtain ⟨rfl, -⟩ := Invocation.mk.inj (Except.ok.inj (exports.asked.symm.trans alsoAsked))
  obtain rfl := Option.some.inj (exports.named.symm.trans alsoNamed)
  obtain rfl := Option.some.inj (beside.symm.trans besideToo)
  obtain rfl := Except.ok.inj (leads.symm.trans leadsToo)
  exact free

end Run

/-- A document with a descriptor that plain text cannot hold. -/
def commentLikeText : List Char := "nodes: ['#a']\n".toList

/-- The arguments that export the document as plain text to the very file that holds it. -/
def overwritingArguments : List String :=
  ["export", "--yaml", "c.yaml", "--format", "text", "-o", "c.yaml"]

/-- The options that these arguments set. -/
def overwritingOptions : Options :=
  { yaml := some "c.yaml", format := some "text", output := some "c.yaml" }

theorem load_commentLikeText :
    (Yaml.load none commentLikeText).1 =
      .ok (some (.mapping [(.text "nodes", .sequence [.text "#a"])])) := by
  cbv

/-- A YAML file is read as the document that its text is. -/
theorem readYamlFile_of_load {text : List Char} {value : Yaml.Value}
    (unified : Text.unifyNewlines (Text.Utf8.withoutMark text) = text)
    (loads : (Yaml.load none text).1 = .ok (some value)) :
    (readYamlFile none (storeHolding "c.yaml" text) (.ofString "c.yaml")).1 =
      readDocument (.ofString "c.yaml") (some value) := by
  simp only [readYamlFile, readFileText_storeHolding unified, loads]
  rfl

theorem exportsToFile_overwriting :
    ExportsToFile overwritingArguments overwritingOptions "c.yaml" :=
  ⟨by decide +kernel, rfl⟩

theorem read_overwritingOptions :
    overwritingOptions.read (storeHolding "c.yaml" commentLikeText) =
      .ok (Reading.counted ⟨[⟨0, "#a"⟩]⟩ "c.yaml", "c.yaml") := by
  have document := readYamlFile_of_load (by decide +kernel) load_commentLikeText
  simp only [overwritingOptions, Options.read, document]
  rfl

/-- The refused export to the file that is read leaves the file with its text. -/
theorem failure_leaves_no_trace_own_source :
    (∀ options output, ExportsToFile overwritingArguments options output → ∀ scratch,
        (storeHolding "c.yaml" commentLikeText).IsScratch (.ofString output) scratch →
          (storeHolding "c.yaml" commentLikeText).get? scratch = none) ∧
      (run Terminal.Emoji.known (storeHolding "c.yaml" commentLikeText)
        overwritingArguments).ending = .exit 1 ∧
      (run Terminal.Emoji.known (storeHolding "c.yaml" commentLikeText)
        overwritingArguments).store = storeHolding "c.yaml" commentLikeText ∧
      ∃ error, FailsWith Terminal.Emoji.known (storeHolding "c.yaml" commentLikeText)
          overwritingArguments error ∧
        Reports Terminal.Emoji.known (run Terminal.Emoji.known
          (storeHolding "c.yaml" commentLikeText) overwritingArguments) error.message := by
  have vacant := @vacant_of_asked (storeHolding "c.yaml" commentLikeText) _ _ _ _ _
    exportsToFile_overwriting
    (by decide +kernel : temporaryPath? (.ofString "c.yaml") = some ⟨["c.yaml.nodeconf.tmp"]⟩)
    (by decide +kernel : Store.locate _ _ = .ok ["c.yaml.nodeconf.tmp"]) (by decide +kernel)
  have failed : (Command.run Terminal.Emoji.known .exportTo
      (storeHolding "c.yaml" commentLikeText) overwritingOptions).shown =
        .error (.write (.refused (.looksLikeComment "#a"))) := by
    rw [run_of_ok read_overwritingOptions]
    rfl
  have ending : (run Terminal.Emoji.known (storeHolding "c.yaml" commentLikeText)
      overwritingArguments).ending = .exit 1 := by
    rw [run_of_asked exportsToFile_overwriting.asked]
    exact (reports_outcome failed rfl rfl).ending
  have noStrand := not_strandsAt_of_read exportsToFile_overwriting read_overwritingOptions
  obtain ⟨traceless, -, reported⟩ := failure_leaves_no_trace_iff Terminal.Emoji.known
    (storeHolding "c.yaml" commentLikeText) overwritingArguments vacant
  exact ⟨vacant, ending, traceless.2 noStrand (.inl (by simp [ending])), reported ending⟩

/-- A document with a half in a descriptor. -/
def halvedText : List Char := "nodes: [\"a\\uD800\"]\n".toList

/-- The arguments that export the document as plain text to a file. -/
def halvedArguments : List String :=
  ["export", "--yaml", "c.yaml", "--format", "text", "-o", "out"]

/-- The options that these arguments set. -/
def halvedOptions : Options :=
  { yaml := some "c.yaml", format := some "text", output := some "out" }

theorem load_halvedText :
    (Yaml.load none halvedText).1 = .ok (some (.mapping
      [(.text "nodes", .sequence [.text WideConfiguration.halvedName])])) := by
  cbv

/-- The export fails, with nothing in the place of its temporary file before, and leaves an
empty file there. -/
theorem failure_leaves_temporary_file :
    (∀ options output, ExportsToFile halvedArguments options output → ∀ scratch,
        (storeHolding "c.yaml" halvedText).IsScratch (.ofString output) scratch →
          (storeHolding "c.yaml" halvedText).get? scratch = none) ∧
      (run Terminal.Emoji.known (storeHolding "c.yaml" halvedText) halvedArguments).ending =
        .exit 1 ∧
      (storeHolding "c.yaml" halvedText).get? ["out.nodeconf.tmp"] = none ∧
      (run Terminal.Emoji.known (storeHolding "c.yaml" halvedText) halvedArguments).store.get?
        ["out.nodeconf.tmp"] = some (.file []) := by
  have exports : ExportsToFile halvedArguments halvedOptions "out" := ⟨by decide +kernel, rfl⟩
  have beside : temporaryPath? (.ofString "out") = some ⟨["out.nodeconf.tmp"]⟩ := by
    decide +kernel
  have leads : (storeHolding "c.yaml" halvedText).locate ⟨["out.nodeconf.tmp"]⟩ =
      .ok ["out.nodeconf.tmp"] := by decide +kernel
  have free : (storeHolding "c.yaml" halvedText).get? ["out.nodeconf.tmp"] = none := by
    decide +kernel
  have source : halvedOptions.wideConfiguration? (storeHolding "c.yaml" halvedText) =
      some WideConfiguration.halvedEnd := by
    have document := readYamlFile_of_load (by decide +kernel) load_halvedText
    simp only [halvedOptions, Options.wideConfiguration?, Options.read, document]
    rfl
  have strands : StrandsAt (storeHolding "c.yaml" halvedText) halvedArguments
      ["out.nodeconf.tmp"] :=
    ⟨halvedOptions, "out", _, exports, source, rfl, ⟨_, rfl⟩, rfl, _, beside, by decide +kernel,
      leads, by simp [free]⟩
  obtain ⟨ending, left⟩ := @run_of_strandsAt Terminal.Emoji.known _ _ _ strands
  refine ⟨vacant_of_asked exports beside leads free, ending, free, ?_⟩
  rw [left, Store.get?_set_same _ (by simp)]

end Roster.CommandLine
