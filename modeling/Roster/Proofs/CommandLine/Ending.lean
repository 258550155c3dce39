import Mathlib
import Roster.Proofs.CommandLine.Unforeseen
import Roster.Proofs.Source.FileText

/-!
# How the program ends

A run ends with an exit status, and a YAML file that cannot be read is reported with status 1,
unless the file has an error of YAML that the program does not foresee.

Two things are left open. A run that has a half to show ends as the terminal wants. And texts
are nested to any depth here, while a machine breaks off over a text that is too deep for it;
so what is said of runs is said of files that are shallow.
-/

namespace Roster.Yaml

/-- How deep collections are nested in tokens, with some collections open in front of them. -/
def nesting (opened : Nat) : List Token → Nat
  | [] => opened
  | token :: others =>
    match token.kind with
    | .blockSequenceStart | .blockMappingStart | .flowSequenceStart | .flowMappingStart =>
      nesting (opened + 1) others
    | .blockEnd | .flowSequenceEnd | .flowMappingEnd => max opened (nesting (opened - 1) others)
    | _ => nesting opened others

/-- The number of aliases among tokens. -/
def aliasCount (tokens : List Token) : Nat :=
  tokens.countP fun token => match token.kind with
    | .alias _ => true
    | _ => false

/-- The depth to which every machine follows a document. -/
def safeDepth : Nat := 40

/-- A text is shallow if its collections are, also where aliases put one into another. -/
def IsShallow (text : List Char) : Prop :=
  nesting 0 (tokenize .v12 text).tokens * (aliasCount (tokenize .v12 text).tokens + 1) ≤ safeDepth

end Roster.Yaml

namespace Roster.CommandLine

open Roster.Storage (Path Store)

/-- A run ends with one of the exit statuses of the program. -/
def Exits (outcome : Outcome) : Prop :=
  ∃ status ∈ [0, 1, 2], outcome.ending = .exit status

section Outcome

variable (pictures : Terminal.Emoji.Pictures) (result : CommandResult) (threshold : LogLevel)
  (command : Command)

/-- A command is left open if it fails with a half to show. -/
theorem leftOpen_outcome_iff :
    (result.outcome pictures threshold command).ending = .leftOpen ↔
      ∃ error, result.shown = .error error ∧ error.showsHalf = true := by
  unfold CommandResult.outcome
  cases shown : result.shown with
  | ok text => simp
  | error error =>
      cases half : error.showsHalf with
      | true => simp [half]
      | false => cases foreseen : error.isForeseen <;> simp [half, foreseen]

/-- A command that is not left open ends with an exit status unless it fails in a way that is
not foreseen. -/
theorem exits_outcome_iff
    (decided : (result.outcome pictures threshold command).ending ≠ .leftOpen) :
    Exits (result.outcome pictures threshold command) ↔
      ¬∃ error, result.shown = .error error ∧ error.isForeseen = false := by
  rw [Ne, leftOpen_outcome_iff] at decided
  unfold CommandResult.outcome
  cases shown : result.shown with
  | ok text => simp [Exits]
  | error error =>
      have noHalf : error.showsHalf = false :=
        Bool.eq_false_iff.2 fun half => decided ⟨error, shown, half⟩
      cases foreseen : error.isForeseen <;> simp [Exits, noHalf, foreseen]

end Outcome

/-- An argument list asks for a command with a YAML file as its source. -/
inductive AsksForYaml (arguments : List String) (path : String) : Prop where
  | intro {invocation : Invocation} {command : Command}
      (asked : Invocation.ofArguments arguments = .ok invocation)
      (commanded : invocation.command = some command)
      (readsYaml : invocation.options.ReadsYaml path)

/-- A run of which nothing is left open: it has no half to show, and the YAML file that is
asked for is shallow. -/
structure IsSettled (pictures : Terminal.Emoji.Pictures) (store : Store)
    (arguments : List String) : Prop where
  decided : (run pictures store arguments).ending ≠ .leftOpen
  shallow : ∀ path text, AsksForYaml arguments path →
    readFileText store (.ofString path) = .ok text → Yaml.IsShallow text

variable {pictures : Terminal.Emoji.Pictures} {store : Store} {arguments : List String}

/-- Without arguments the program ends like with an invocation without a command. -/
theorem ending_run (pictures : Terminal.Emoji.Pictures) (store : Store)
    (arguments : List String) :
    (run pictures store arguments).ending =
      match Invocation.ofArguments arguments with
      | .error stop => (stop.outcome store).ending
      | .ok invocation => (invocation.outcome pictures store).ending := by
  cases arguments with
  | nil => rfl
  | cons first others =>
      rw [run, List.isEmpty_cons, if_neg Bool.false_ne_true]
      cases Invocation.ofArguments (first :: others) <;> rfl

/-- A run that is asked for a command ends as the command does. -/
theorem run_of_asked {options : Options} {command : Command}
    (asked : Invocation.ofArguments arguments = .ok { options, command := some command }) :
    run pictures store arguments =
      (command.run pictures store options).outcome pictures options.threshold command := by
  have nonempty : arguments.isEmpty = false := by
    cases arguments with
    | nil => cases asked
    | cons first others => rfl
  simp only [run, nonempty, asked, Invocation.outcome]
  rfl

/-- A run that asks for help or for the version, or whose arguments are refused, ends with
an exit status. -/
theorem exits_stop (store : Store) (stop : Stop) : Exits (stop.outcome store) := by
  cases stop with
  | help scope => exact ⟨0, by simp, rfl⟩
  | version => exact ⟨0, by simp, rfl⟩
  | usage scope error => exact ⟨2, by simp, rfl⟩

/-- An invocation ends with an exit status unless its YAML file fails in a way that is not
foreseen. -/
theorem exits_invocation_iff {invocation : Invocation}
    (decided : (invocation.outcome pictures store).ending ≠ .leftOpen) :
    Exits (invocation.outcome pictures store) ↔
      ∀ command, invocation.command = some command →
        ¬∃ path text error, invocation.options.ReadsYaml path ∧
          FailsUnforeseen store (.ofString path) text error := by
  unfold Invocation.outcome at decided ⊢
  cases commanded : invocation.command with
  | none => exact iff_of_true (exits_stop store (.help .program)) nofun
  | some command =>
      simp only [commanded] at decided
      simp only
      rw [exits_outcome_iff _ _ _ _ decided, exists_unforeseen_run_iff,
        Options.exists_unforeseen_read_iff]
      simp

/-- A run ends with an exit status unless the YAML file that is asked for fails in a way that
is not foreseen. -/
theorem exits_run_iff (decided : (run pictures store arguments).ending ≠ .leftOpen) :
    Exits (run pictures store arguments) ↔
      ¬∃ path text error, AsksForYaml arguments path ∧
        FailsUnforeseen store (.ofString path) text error := by
  rw [ending_run] at decided
  rw [Exits, ending_run]
  cases asked : Invocation.ofArguments arguments with
  | error stop =>
      refine iff_of_true (exits_stop store stop) ?_
      rintro ⟨path, text, error, ⟨other, -, -⟩, -⟩
      cases asked.symm.trans other
  | ok invocation =>
      rw [asked] at decided
      refine (exits_invocation_iff decided).trans ⟨?_, ?_⟩
      · rintro named ⟨path, text, error, ⟨other, commanded, readsYaml⟩, failure⟩
        cases asked.symm.trans other
        exact named _ commanded ⟨path, text, error, readsYaml, failure⟩
      · rintro foreseen command commanded ⟨path, text, error, readsYaml, failure⟩
        exact foreseen ⟨path, text, error, ⟨asked, commanded, readsYaml⟩, failure⟩

/-- What is left open about how a run ends comes from a YAML file: reading the file gives halves,
or fails with a half to show. -/
theorem asksForYaml_of_leftOpen (left : (run pictures store arguments).ending = .leftOpen) :
    ∃ path error, AsksForYaml arguments path ∧
      (readYamlFile none store (.ofString path)).1 = .error error ∧
      ((CommandError.read error).IsFault → (CommandError.read error).showsHalf = true) := by
  cases asked : Invocation.ofArguments arguments with
  | error stop =>
      rw [ending_run, asked] at left
      cases stop <;> cases left
  | ok invocation =>
      obtain ⟨options, commanded⟩ := invocation
      cases commanded with
      | none =>
          rw [ending_run, asked] at left
          cases left
      | some command =>
          rw [run_of_asked asked, leftOpen_outcome_iff] at left
          obtain ⟨error, failed, half⟩ := left
          cases read : options.read store with
          | ok reading =>
              rw [run_of_ok read] at failed
              cases (isReported_of_perform failed).noHalf.symm.trans half
          | error cause =>
              rcases Options.isReported_or_readsYaml read with reported | yaml
              · rw [run_of_error reported.isFault read] at failed
                obtain rfl := Except.error.inj failed
                cases reported.noHalf.symm.trans half
              · obtain ⟨path, cause, readsYaml, refused, rfl⟩ := yaml
                refine ⟨path, cause, ⟨asked, rfl, readsYaml⟩, refused, fun isFault => ?_⟩
                rw [run_of_error isFault read] at failed
                exact Except.error.inj failed ▸ half

/-- A failure is reported in a line of its own, with status 1. -/
structure Reports (pictures : Terminal.Emoji.Pictures) (outcome : Outcome) (message : String) :
    Prop where
  ending : outcome.ending = .exit 1
  output : outcome.output = Terminal.errorTextWith pictures message

theorem Reports.exits {outcome : Outcome} {message : String}
    (reports : Reports pictures outcome message) : Exits outcome :=
  ⟨1, by simp, reports.ending⟩

/-- A command whose failure is foreseen and shows no half reports it. -/
theorem reports_outcome {result : CommandResult} {threshold : LogLevel} {command : Command}
    {error : CommandError} (failed : result.shown = .error error)
    (noHalf : error.showsHalf = false) (foreseen : error.isForeseen = true) :
    Reports pictures (result.outcome pictures threshold command) error.message := by
  rw [CommandResult.outcome, failed]
  simp only [noHalf, foreseen, if_true, Bool.false_eq_true, if_false]
  exact ⟨rfl, rfl⟩

/-- In a run that is settled, a YAML file that cannot be read is reported exactly if its error
is foreseen. -/
theorem reports_iff {path : String} {error : ReadError}
    (decided : (run pictures store arguments).ending ≠ .leftOpen)
    (asks : AsksForYaml arguments path)
    (failed : (readYamlFile none store (.ofString path)).1 = .error error)
    (isFault : (CommandError.read error).IsFault) :
    Reports pictures (run pictures store arguments) error.message ↔
      ¬∃ text cause, FailsUnforeseen store (.ofString path) text cause := by
  constructor
  · rintro reports ⟨text, cause, failure⟩
    exact (exits_run_iff decided).1 reports.exits ⟨path, text, cause, asks, failure⟩
  · intro noFailure
    obtain ⟨asked, commanded, readsYaml⟩ := asks
    rename_i invocation command
    obtain ⟨options, asksFor⟩ := invocation
    obtain rfl : asksFor = some command := commanded
    have foreseen : (CommandError.read error).isForeseen = true := by
      by_contra unforeseen
      exact noFailure ((exists_failsUnforeseen_iff store _).1
        ⟨error, failed, Bool.eq_false_iff.2 unforeseen⟩)
    rw [run_of_asked asked, run_of_error isFault (readsYaml.read_eq_error failed)] at decided ⊢
    rw [Ne, leftOpen_outcome_iff] at decided
    refine reports_outcome rfl (Bool.eq_false_iff.2 fun half => ?_) foreseen
    exact decided ⟨_, rfl, half⟩

/-- A run that is settled ends with an exit status exactly if the YAML file that is asked for
does not fail in a way that is not foreseen, and exactly then a YAML file that cannot be read
is reported. There are three such ways: an unknown minor version, a collection inside a key,
and an escape too large for a number of the machine. A version number with too many digits is
foreseen. -/
theorem run_exits_iff (settled : IsSettled pictures store arguments) :
    (Exits (run pictures store arguments) ↔
      ¬∃ path text error, AsksForYaml arguments path ∧
        FailsUnforeseen store (.ofString path) text error) ∧
    ∀ path error, AsksForYaml arguments path →
      (readYamlFile none store (.ofString path)).1 = .error error →
        (CommandError.read error).IsFault →
          (Reports pictures (run pictures store arguments) error.message ↔
            ¬∃ text cause, FailsUnforeseen store (.ofString path) text cause) :=
  ⟨exits_run_iff settled.decided, fun _ _ asks failed isFault =>
    reports_iff settled.decided asks failed isFault⟩

section Shown

/-- The arguments that show a YAML file. -/
def showYaml : List String := ["show", "--yaml", "c.yaml"]

/-- The options that these arguments set. -/
def showYamlOptions : Options := { yaml := some "c.yaml" }

theorem asked_showYaml : Invocation.ofArguments showYaml =
    .ok { options := showYamlOptions, command := some .showTable } := by
  decide +kernel

theorem eq_of_asksForYaml_showYaml {path : String} (asks : AsksForYaml showYaml path) :
    path = "c.yaml" := by
  obtain ⟨asked, -, -, isYaml⟩ := asks
  obtain rfl := Except.ok.inj (asked_showYaml.symm.trans asked)
  exact (Option.some.inj isYaml).symm

variable {text : List Char}

/-- The text of the file is found, if it is as readers give it. -/
theorem readFileText_storeHolding
    (unified : Text.unifyNewlines (Text.Utf8.withoutMark text) = text) :
    readFileText (storeHolding "c.yaml" text) (.ofString "c.yaml") = .ok text := by
  have located : (storeHolding "c.yaml" text).locate (.ofString "c.yaml") = .ok ["c.yaml"] :=
    Store.locate_of_keepsDirectories (Store.keepsDirectories_set _ (by decide))
      (by decide +kernel : Store.empty.locate (.ofString "c.yaml") = .ok ["c.yaml"])
  rw [readFileText_of_file (by decide +kernel) located (Store.get?_set_same _ (by simp) _), unified]

/-- A text that is no document makes reading the file fail. -/
theorem readYamlFile_storeHolding {error : Yaml.Error}
    (unified : Text.unifyNewlines (Text.Utf8.withoutMark text) = text)
    (fails : (Yaml.load none text).1 = .error error) :
    (readYamlFile none (storeHolding "c.yaml" text) (.ofString "c.yaml")).1 =
      .error (.yaml text error) := by
  simp only [readYamlFile, readFileText_storeHolding unified, fails]
  rfl

/-- And so it makes the command fail. -/
theorem run_showYaml {error : Yaml.Error}
    (unified : Text.unifyNewlines (Text.Utf8.withoutMark text) = text)
    (fails : (Yaml.load none text).1 = .error error) :
    run pictures (storeHolding "c.yaml" text) showYaml =
      CommandResult.outcome pictures
        { shown := .error (.read (.yaml text error)), records := []
          store := storeHolding "c.yaml" text }
        .warning .showTable := by
  have readFails : showYamlOptions.read (storeHolding "c.yaml" text) =
      .error (.read (.yaml text error)) :=
    Options.ReadsYaml.read_eq_error ⟨rfl, rfl⟩ (readYamlFile_storeHolding unified fails)
  rw [run_of_asked asked_showYaml, run_of_error (by rintro reading ⟨⟩) readFails]
  rfl

end Shown

/-- A document with a sequence that is not closed. -/
def unclosedText : List Char := "nodes: [a\n".toList

/-- What is wrong with it. -/
def unclosedFault : Yaml.Fault where
  context := some .flowSequence
  since := some { index := 7, line := 0, column := 7 }
  cause := .noFlowSequenceEnd .streamEnd
  place := { index := 10, line := 1, column := 0 }

theorem load_unclosedText :
    (Yaml.load none unclosedText).1 = .error (.grammatical unclosedFault) := by
  cbv

theorem isShallow_unclosedText : Yaml.IsShallow unclosedText := by
  have two : Yaml.nesting 0 (Yaml.tokenize .v12 unclosedText).tokens = 2 := by cbv
  have noAlias : Yaml.aliasCount (Yaml.tokenize .v12 unclosedText).tokens = 0 := by cbv
  rw [Yaml.IsShallow, two, noAlias]
  decide

/-- A run over that document reports it. -/
theorem run_exits_unclosed :
    IsSettled Terminal.Emoji.known (storeHolding "c.yaml" unclosedText) showYaml ∧
      Exits (run Terminal.Emoji.known (storeHolding "c.yaml" unclosedText) showYaml) ∧
      Reports Terminal.Emoji.known
        (run Terminal.Emoji.known (storeHolding "c.yaml" unclosedText) showYaml)
        (unclosedFault.message unclosedText) := by
  have unified : Text.unifyNewlines (Text.Utf8.withoutMark unclosedText) = unclosedText := by
    decide +kernel
  have settled : IsSettled Terminal.Emoji.known (storeHolding "c.yaml" unclosedText) showYaml := by
    refine ⟨?_, fun path text asks found => ?_⟩
    · rw [run_showYaml unified load_unclosedText]
      nofun
    · obtain rfl := eq_of_asksForYaml_showYaml asks
      obtain rfl := Except.ok.inj ((readFileText_storeHolding unified).symm.trans found)
      exact isShallow_unclosedText
  have foreseen : ¬∃ text cause,
      FailsUnforeseen (storeHolding "c.yaml" unclosedText) (.ofString "c.yaml") text cause := by
    rintro ⟨text, cause, failure⟩
    obtain rfl := Except.ok.inj ((readFileText_storeHolding unified).symm.trans failure.found)
    obtain rfl := Except.error.inj (load_unclosedText.symm.trans failure.fails)
    cases failure.unforeseen
  obtain ⟨exits, reports⟩ := run_exits_iff settled
  refine ⟨settled, exits.2 ?_, (reports "c.yaml" (.yaml unclosedText (.grammatical unclosedFault))
    ⟨asked_showYaml, rfl, rfl, rfl⟩ (readYamlFile_storeHolding unified load_unclosedText)
    (by rintro reading ⟨⟩)).2 foreseen⟩
  rintro ⟨path, text, error, asks, failure⟩
  obtain rfl := eq_of_asksForYaml_showYaml asks
  exact foreseen ⟨text, error, failure⟩

/-- A document that asks for a minor version that there is none of. -/
def unknownVersionText : List Char := "%YAML 1.3\n---\nnodes: [a]\n".toList

theorem load_unknownVersionText :
    (Yaml.load none unknownVersionText).1 = .error (.unknownMinorVersion 1 3) := by
  cbv

/-- A run over that document is broken off. -/
theorem not_exits_unknownVersion :
    ¬Exits (run Terminal.Emoji.known (storeHolding "c.yaml" unknownVersionText) showYaml) := by
  rw [run_showYaml (by decide +kernel) load_unknownVersionText]
  rintro ⟨status, -, ending⟩
  cases ending

end Roster.CommandLine
