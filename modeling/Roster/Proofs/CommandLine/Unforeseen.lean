import Roster.CommandLine.Run
import Roster.Proofs.Configuration.Refusal

/-!
# Failures that are not foreseen

What a command does not foresee are three errors of YAML in the text of the file that it
reads. All other failures, of files, encodings, documents, descriptors and exports, are
foreseen wherever they come from. They are also reported in words without halves, unless they
come from a YAML file.
-/

namespace Roster.CommandLine

open Roster.Storage (Path Store)

/-- The errors of YAML that the program does not foresee: a collection inside a key, an
unknown minor version, and an escape too large for a number of the machine. -/
inductive IsUnforeseen : Yaml.Error → Prop where
  | nestedKey (inside : Yaml.Collection) : IsUnforeseen (.nestedKey inside)
  | unknownMinorVersion (major minor : Nat) : IsUnforeseen (.unknownMinorVersion major minor)
  | escapeTooLarge : IsUnforeseen .escapeTooLarge

theorem isForeseen_yaml_iff (text : List Char) (error : Yaml.Error) :
    (CommandError.read (.yaml text error)).isForeseen = false ↔ IsUnforeseen error := by
  constructor
  · intro unforeseen
    cases error with
    | nestedKey inside => exact .nestedKey inside
    | unknownMinorVersion major minor => exact .unknownMinorVersion major minor
    | escapeTooLarge => exact .escapeTooLarge
    | _ => cases unforeseen
  · rintro (_ | _ | _) <;> rfl

/-- A source is at fault that gives neither a configuration nor one with halves. -/
def CommandError.IsFault (error : CommandError) : Prop :=
  ∀ reading, error ≠ .read (.halved reading)

/-- A fault that is reported: it is foreseen, and there is no half to show. -/
structure CommandError.IsReported (error : CommandError) : Prop where
  isFault : error.IsFault
  foreseen : error.isForeseen = true
  noHalf : error.showsHalf = false

/-- A file whose text cannot be had is reported. -/
theorem isReported_of_readFileText {store : Store} {path : Path} {error : ReadError}
    (failed : readFileText store path = .error error) : (CommandError.read error).IsReported := by
  unfold readFileText at failed
  split at failed
  · obtain rfl := Except.error.inj failed
    exact ⟨nofun, rfl, rfl⟩
  · rcases bind_eq_error.1 failed with noFile | ⟨bytes, -, failed⟩
    · obtain ⟨failure, -, rfl⟩ := mapError_eq_error.1 noFile
      exact ⟨nofun, rfl, rfl⟩
    · rcases bind_eq_error.1 failed with noText | ⟨text, -, same⟩
      · obtain ⟨fault, -, rfl⟩ := mapError_eq_error.1 noText
        exact ⟨nofun, rfl, rfl⟩
      · cases same

/-- A datum that is refused as a descriptor is reported. -/
theorem isReported_of_addAllData {origin : String} {data : List Datum} {error : ReadError}
    (failed : countedReading origin (Configuration.empty.addAllData data) = .error error) :
    (CommandError.read error).IsReported := by
  unfold countedReading at failed
  split at failed
  · rename_i cause refused
    obtain rfl := Except.error.inj failed
    obtain ⟨-, datum, -, -, -, isRefused⟩ := Configuration.addAllData_eq_error_iff.1 refused
    cases isRefused <;> exact ⟨nofun, rfl, rfl⟩
  · cases failed

/-- So is a string that is refused. -/
theorem isReported_of_ofDescriptors {origin : String} {descriptors : List String}
    {error : ReadError}
    (failed : countedReading origin (Configuration.ofDescriptors descriptors) = .error error) :
    (CommandError.read error).IsReported := by
  rw [Configuration.ofDescriptors, ← Configuration.addAllData_texts] at failed
  exact isReported_of_addAllData failed

theorem isReported_of_readPlainFile {store : Store} {path : Path} {error : ReadError}
    (failed : readPlainFile store path = .error error) : (CommandError.read error).IsReported := by
  rcases bind_eq_error.1 failed with noText | ⟨text, -, refused⟩
  · exact isReported_of_readFileText noText
  · exact isReported_of_ofDescriptors refused

/-- A node that is refused is foreseen. -/
theorem isForeseen_of_addNodes {path : Path} {items : List Yaml.Value}
    {configuration : WideConfiguration} {error : ReadError}
    (failed : items.foldlM (addNode path) configuration = .error error) :
    (CommandError.read error).isForeseen = true := by
  induction items generalizing configuration with
  | nil => cases failed
  | cons item others inductionHypothesis =>
      rw [List.foldlM_cons] at failed
      rcases bind_eq_error.1 failed with refused | ⟨next, -, failed⟩
      · cases item with
        | text descriptor =>
            obtain ⟨cause, -, rfl⟩ := mapError_eq_error.1 refused
            rfl
        | _ =>
            obtain rfl := Except.error.inj refused
            rfl
      · exact inductionHypothesis failed

/-- So are nodes that are no strings. -/
theorem isForeseen_of_nodesReading {origin : String} {nodes : WideConfiguration}
    {error : ReadError} (failed : nodesReading origin nodes = .error error) :
    (CommandError.read error).isForeseen = true := by
  unfold nodesReading at failed
  split at failed
  · obtain rfl := Except.error.inj failed
    rfl
  · exact (isReported_of_ofDescriptors failed).foreseen

/-- A document of another shape is foreseen. -/
theorem isForeseen_of_readDocument {path : Path} {document : Option Yaml.Value}
    {error : ReadError} (failed : readDocument path document = .error error) :
    (CommandError.read error).isForeseen = true := by
  unfold readDocument at failed
  split at failed
  · cases failed
  · cases failed
  · split at failed
    · cases failed
    · cases failed
    · cases failed
    · rcases bind_eq_error.1 failed with refused | ⟨nodes, -, refused⟩
      · exact isForeseen_of_addNodes refused
      · exact isForeseen_of_nodesReading refused
    · obtain rfl := Except.error.inj failed
      rfl
  · obtain rfl := Except.error.inj failed
    rfl

/-- The text of a YAML file is no document, for a reason that is not foreseen. -/
structure FailsUnforeseen (store : Store) (path : Path) (text : List Char) (error : Yaml.Error) :
    Prop where
  found : readFileText store path = .ok text
  fails : (Yaml.load none text).1 = .error error
  unforeseen : IsUnforeseen error

/-- What is not foreseen about a YAML file is one of three errors in its text. -/
theorem exists_failsUnforeseen_iff (store : Store) (path : Path) :
    (∃ error, (readYamlFile none store path).1 = .error error ∧
        (CommandError.read error).isForeseen = false) ↔
      ∃ text error, FailsUnforeseen store path text error := by
  unfold readYamlFile
  cases found : readFileText store path with
  | error refused =>
      constructor
      · rintro ⟨error, same, unforeseen⟩
        obtain rfl := Except.error.inj same
        rw [(isReported_of_readFileText found).foreseen] at unforeseen
        cases unforeseen
      · rintro ⟨text, error, failure⟩
        cases failure.found.symm.trans found
  | ok text =>
      constructor
      · rintro ⟨error, failed, unforeseen⟩
        rcases bind_eq_error.1 failed with noDocument | ⟨document, -, refused⟩
        · obtain ⟨cause, fails, rfl⟩ := mapError_eq_error.1 noDocument
          exact ⟨text, cause, found, fails, (isForeseen_yaml_iff text cause).1 unforeseen⟩
        · rw [isForeseen_of_readDocument refused] at unforeseen
          cases unforeseen
      · rintro ⟨other, error, failure⟩
        obtain rfl := Except.ok.inj (found.symm.trans failure.found)
        refine ⟨.yaml text error, ?_, (isForeseen_yaml_iff text error).2 failure.unforeseen⟩
        simp only [failure.fails]
        rfl

namespace Options

/-- The options name a YAML file as the source. -/
def ReadsYaml (options : Options) (path : String) : Prop :=
  options.file = none ∧ options.yaml = some path

/-- What is wrong with a source that is no YAML file is reported. -/
theorem isReported_or_readsYaml {options : Options} {store : Store} {error : CommandError}
    (failed : options.read store = .error error) :
    error.IsReported ∨ ∃ path cause, options.ReadsYaml path ∧
      (readYamlFile none store (.ofString path)).1 = .error cause ∧ error = .read cause := by
  have labelled {label : String} {reading : Except ReadError Reading}
      (reported : ∀ cause, reading = .error cause → (CommandError.read cause).IsReported)
      (refused : ((reading.mapError CommandError.read).map fun reading => (reading, label)) =
        .error error) : error.IsReported := by
    obtain ⟨cause, isCause, rfl⟩ := mapError_eq_error.1 (map_eq_error.1 refused)
    exact reported cause isCause
  obtain ⟨logLevel, source, file, yaml, nodes, format, output⟩ := options
  match file, yaml, nodes, source with
  | some path, _, _, _ => exact .inl (labelled (fun _ => isReported_of_readPlainFile) failed)
  | none, some path, _, _ =>
      obtain ⟨cause, refused, rfl⟩ := mapError_eq_error.1 (map_eq_error.1 failed)
      exact .inr ⟨path, cause, ⟨rfl, rfl⟩, refused, rfl⟩
  | none, none, some nodes, _ => exact .inl (labelled (fun _ => isReported_of_addAllData) failed)
  | none, none, none, some text =>
      exact .inl (labelled (fun _ => isReported_of_ofDescriptors) failed)
  | none, none, none, none =>
      obtain rfl := Except.error.inj failed
      exact .inl ⟨nofun, rfl, rfl⟩

/-- A YAML file that cannot be read makes the reading fail. -/
theorem ReadsYaml.read_eq_error {options : Options} {path : String}
    (readsYaml : options.ReadsYaml path) {store : Store} {error : ReadError}
    (failed : (readYamlFile none store (.ofString path)).1 = .error error) :
    options.read store = .error (.read error) := by
  obtain ⟨noFile, isYaml⟩ := readsYaml
  simp only [Options.read, noFile, isYaml, failed]
  rfl

/-- What is not foreseen about reading a source is not foreseen about a YAML file. -/
theorem exists_unforeseen_read_iff (options : Options) (store : Store) :
    (∃ error, options.read store = .error error ∧ error.isForeseen = false) ↔
      ∃ path text error, options.ReadsYaml path ∧
        FailsUnforeseen store (.ofString path) text error := by
  constructor
  · rintro ⟨error, failed, unforeseen⟩
    rcases isReported_or_readsYaml failed with reported | ⟨path, cause, readsYaml, refused, rfl⟩
    · cases reported.foreseen.symm.trans unforeseen
    · obtain ⟨text, other, failure⟩ :=
        (exists_failsUnforeseen_iff store (.ofString path)).1 ⟨cause, refused, unforeseen⟩
      exact ⟨path, text, other, readsYaml, failure⟩
  · rintro ⟨path, text, error, readsYaml, failure⟩
    obtain ⟨cause, refused, unforeseen⟩ :=
      (exists_failsUnforeseen_iff store (.ofString path)).2 ⟨text, error, failure⟩
    exact ⟨.read cause, readsYaml.read_eq_error refused, unforeseen⟩

end Options

section

variable {pictures : Terminal.Emoji.Pictures} {command : Command} {store : Store}
  {options : Options} {error : CommandError}

/-- The refusal of an export is reported, for it names a string. -/
theorem isReported_of_exportAs {configuration : Configuration} {format : Datum}
    {cause : ExportError} (refused : configuration.exportAs format = .error cause) :
    (CommandError.refused cause).IsReported ∧
      (CommandError.write (.refused cause)).IsReported := by
  unfold Configuration.exportAs at refused
  split at refused
  · rename_i known _
    cases known with
    | yaml => cases refused
    | text =>
        rw [Configuration.exportIn, Configuration.toText] at refused
        split at refused
        · obtain rfl := Except.error.inj refused
          exact ⟨⟨nofun, rfl, rfl⟩, ⟨nofun, rfl, rfl⟩⟩
        · cases refused
  · obtain rfl := Except.error.inj refused
    exact ⟨⟨nofun, rfl, rfl⟩, ⟨nofun, rfl, rfl⟩⟩

/-- So is a write that fails. -/
theorem isReported_of_write {configuration : Configuration} {target : Path} {format : Datum}
    {failure : WriteError} (failed : (configuration.write store target format).1 = .error failure) :
    (CommandError.write failure).IsReported := by
  unfold Configuration.write at failed
  split at failed
  · rename_i cause refused
    obtain rfl := Except.error.inj failed
    exact (isReported_of_exportAs refused).2
  · split at failed
    · obtain rfl := Except.error.inj failed
      exact ⟨nofun, rfl, rfl⟩
    · split at failed
      · obtain rfl := Except.error.inj failed
        exact ⟨nofun, rfl, rfl⟩
      · split at failed
        · cases failed
        · obtain rfl := Except.error.inj failed
          exact ⟨nofun, rfl, rfl⟩

/-- Showing, exporting and writing a configuration fail in ways that are reported. -/
theorem isReported_of_perform {configuration : Configuration} {label : String}
    (failed : (command.perform pictures store options configuration label).shown =
      .error error) : error.IsReported := by
  unfold Command.perform at failed
  split at failed
  · cases failed
  · obtain ⟨cause, refused, rfl⟩ := mapError_eq_error.1 (map_eq_error.1 failed)
    exact (isReported_of_exportAs refused).1
  · split at failed
    · cases failed
    · rename_i written
      obtain rfl := Except.error.inj failed
      exact isReported_of_write (congrArg Prod.fst written)

theorem isForeseen_of_shownCodes {codes : List Text.CodePoint}
    (failed : shownCodes codes = .error error) : error.isForeseen = true := by
  unfold shownCodes at failed
  split at failed
  · cases failed
  · obtain rfl := Except.error.inj failed
    rfl

/-- With halves, they fail in ways that are foreseen. -/
theorem isForeseen_of_performWide {configuration : WideConfiguration}
    (failed : (command.performWide pictures store options configuration).shown =
      .error error) : error.isForeseen = true := by
  unfold Command.performWide at failed
  split at failed
  · obtain rfl := Except.error.inj failed
    rfl
  · rcases bind_eq_error.1 failed with refused | ⟨codes, -, refused⟩
    · obtain ⟨cause, -, rfl⟩ := mapError_eq_error.1 refused
      rfl
    · exact isForeseen_of_shownCodes refused
  · split at failed
    · cases failed
    · obtain rfl := Except.error.inj failed
      rfl

/-- A command fails where its source is at fault. -/
theorem run_of_error (isFault : error.IsFault) (failed : options.read store = .error error) :
    command.run pictures store options = { shown := .error error, records := [], store } := by
  unfold Command.run
  split
  · rename_i reading halved
    exact absurd (Except.error.inj (failed.symm.trans halved)) (isFault reading)
  · rename_i other same
    obtain rfl := Except.error.inj (failed.symm.trans same)
    rfl
  · rename_i given
    cases failed.symm.trans given

/-- With halves, a command does what it does with a wide configuration. -/
theorem run_of_halved {reading : WideReading}
    (halved : options.read store = .error (.read (.halved reading))) :
    command.run pictures store options =
      { command.performWide pictures store options reading.configuration with
        records := reading.report ::
          (command.performWide pictures store options reading.configuration).records } := by
  simp only [Command.run, halved]

/-- Otherwise it does what it does with a configuration. -/
theorem run_of_ok {reading : Reading} {label : String}
    (read : options.read store = .ok (reading, label)) :
    command.run pictures store options =
      { command.perform pictures store options reading.configuration label with
        records := reading.report.toList ++
          (command.perform pictures store options reading.configuration label).records } := by
  simp only [Command.run, read]

/-- What is not foreseen is a fault of the source. -/
theorem CommandError.isFault_of_unforeseen (unforeseen : error.isForeseen = false) :
    error.IsFault := by
  rintro reading rfl
  cases unforeseen

/-- What is not foreseen about a command is not foreseen about reading its source. -/
theorem exists_unforeseen_run_iff (pictures : Terminal.Emoji.Pictures) (command : Command)
    (store : Store) (options : Options) :
    (∃ error, (command.run pictures store options).shown = .error error ∧
        error.isForeseen = false) ↔
      ∃ error, options.read store = .error error ∧ error.isForeseen = false := by
  constructor
  · rintro ⟨error, failed, unforeseen⟩
    cases read : options.read store with
    | error cause =>
        by_cases isFault : cause.IsFault
        · rw [run_of_error isFault read] at failed
          exact ⟨cause, rfl, Except.error.inj failed ▸ unforeseen⟩
        · simp only [CommandError.IsFault, not_forall, not_not] at isFault
          obtain ⟨reading, rfl⟩ := isFault
          rw [run_of_halved read] at failed
          rw [isForeseen_of_performWide failed] at unforeseen
          cases unforeseen
    | ok reading =>
        rw [run_of_ok read] at failed
        cases (isReported_of_perform failed).foreseen.symm.trans unforeseen
  · rintro ⟨error, failed, unforeseen⟩
    refine ⟨error, ?_, unforeseen⟩
    rw [run_of_error (CommandError.isFault_of_unforeseen unforeseen) failed]

end

end Roster.CommandLine
