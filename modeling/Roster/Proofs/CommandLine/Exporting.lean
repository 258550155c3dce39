import Roster.Proofs.CommandLine.Ending
import Roster.Proofs.Export.Wide

/-!
# What an export does

An export depends on its source only through the configuration that is read, with halves or
without: it ends as the write of this configuration does, or shows the text of it on the
screen.
-/

namespace Roster.CommandLine

open Roster.Storage (Path Store)
open Roster.Text (CodePoint)

section Outcome

variable {pictures : Terminal.Emoji.Pictures} {result : CommandResult} {threshold : LogLevel}
  {command : Command}

/-- Telling how a command ends does not touch the store. -/
theorem store_outcome (result : CommandResult) (threshold : LogLevel) (command : Command) :
    (result.outcome pictures threshold command).store = result.store := by
  unfold CommandResult.outcome
  split
  · rfl
  · split
    · rfl
    · split <;> rfl

/-- A command that ends with status 0 has not failed. -/
theorem exit_of_shown {text : String} (shown : result.shown = .ok text) :
    (result.outcome pictures threshold command).ending = .exit 0 := by
  simp [CommandResult.outcome, shown]

/-- It has shown what it shows. -/
theorem shown_of_exit (ending : (result.outcome pictures threshold command).ending = .exit 0) :
    result.shown = .ok (result.outcome pictures threshold command).output := by
  cases shown : result.shown with
  | ok text => simp [CommandResult.outcome, shown]
  | error error =>
      unfold CommandResult.outcome at ending
      simp only [shown] at ending
      split at ending
      · cases ending
      · split at ending <;> cases ending

end Outcome

section Command

variable {pictures : Terminal.Emoji.Pictures} {command : Command} {store : Store}
  {options : Options}

/-- A command that writes no file leaves the store alone. -/
theorem store_run_of_noOutput (store : Store)
    (noOutput : command = .exportTo → options.outputPath? = none) :
    (command.run pictures store options).store = store := by
  unfold Command.run
  split
  · cases command with
    | showTable => rfl
    | exportTo => simp [Command.performWide, noOutput rfl]
  · rfl
  · cases command with
    | showTable => rfl
    | exportTo => simp [Command.perform, noOutput rfl]

/-- Without a configuration to export, the command fails and leaves the store alone. -/
theorem run_of_noConfiguration (none : options.wideConfiguration? store = none) :
    ∃ error, (command.run pictures store options).shown = .error error ∧
      (command.run pictures store options).store = store := by
  unfold Options.wideConfiguration? at none
  split at none
  · cases none
  · cases none
  · rename_i error notHalved failed
    rw [run_of_error (fun reading same => notHalved reading same) failed]
    exact ⟨error, rfl, rfl⟩

/-- An export to a file ends as the write of the configuration does. -/
theorem run_of_configuration {configuration : WideConfiguration} {output : String}
    (source : options.wideConfiguration? store = some configuration)
    (named : options.outputPath? = some output) :
    (Command.exportTo.run pictures store options).shown =
      ((configuration.write store (.ofString output) options.formatDatum).1.mapError
        CommandError.write).map
          (fun _ => Terminal.writtenTextWith pictures configuration.size output) ∧
      (Command.exportTo.run pictures store options).store =
        (configuration.write store (.ofString output) options.formatDatum).2 := by
  unfold Options.wideConfiguration? at source
  split at source
  · rename_i reading label read
    obtain rfl := Option.some.inj source
    rw [run_of_ok read, Configuration.wide_write, Configuration.size_wide]
    simp only [Command.perform, named]
    rcases reading.configuration.write store (.ofString output) options.formatDatum with
      ⟨error | record, after⟩ <;> exact ⟨rfl, rfl⟩
  · rename_i reading halved
    obtain rfl := Option.some.inj source
    rw [run_of_halved halved]
    simp only [Command.performWide, named]
    rcases reading.configuration.write store (.ofString output) options.formatDatum with
      ⟨error | record, after⟩ <;> exact ⟨rfl, rfl⟩
  · cases source

/-- The text that code points without a half show as. -/
theorem shownCodes_eq_ok_iff {codes : List CodePoint} {text : String} :
    shownCodes codes = .ok text ↔
      ∃ content : List Char, codes = content.map .char ∧ text = Terminal.exportText content := by
  cases holds : codes.any CodePoint.isHalf with
  | true =>
      refine iff_of_false ?_ ?_
      · rw [shownCodes, Text.Wide.ofCodes_halved holds]
        nofun
      · rintro ⟨content, rfl, -⟩
        rw [CodePoint.any_isHalf_chars] at holds
        cases holds
  | false =>
      obtain ⟨content, rfl⟩ := CodePoint.exists_chars holds
      rw [shownCodes, Text.Wide.ofCodes_chars]
      simp only [String.toList_ofList, Except.ok.injEq]
      constructor
      · rintro rfl
        exact ⟨content, rfl, rfl⟩
      · rintro ⟨other, same, rfl⟩
        rw [CodePoint.map_char_injective same]

/-- An export without an output file shows the text of the configuration, if it has one. -/
theorem shown_exportTo_iff {configuration : WideConfiguration}
    (source : options.wideConfiguration? store = some configuration)
    (noOutput : options.outputPath? = none) {text : String} :
    (Command.exportTo.run pictures store options).shown = .ok text ↔
      ∃ content : List Char,
        configuration.exportAs options.formatDatum = .ok (content.map .char) ∧
          text = Terminal.exportText content := by
  unfold Options.wideConfiguration? at source
  split at source
  · rename_i reading label read
    obtain rfl := Option.some.inj source
    rw [run_of_ok read, Configuration.wide_exportAs]
    simp only [Command.perform, noOutput, map_eq_ok, mapError_eq_ok]
    constructor
    · rintro ⟨content, exported, rfl⟩
      exact ⟨content, ⟨content, exported, rfl⟩, rfl⟩
    · rintro ⟨content, ⟨same, exported, chars⟩, rfl⟩
      exact ⟨content, CodePoint.map_char_injective chars ▸ exported, rfl⟩
  · rename_i reading halved
    obtain rfl := Option.some.inj source
    rw [run_of_halved halved]
    simp only [Command.performWide, noOutput]
    constructor
    · intro shown
      obtain ⟨codes, exported, isText⟩ := bind_eq_ok.1 shown
      obtain ⟨content, rfl, rfl⟩ := shownCodes_eq_ok_iff.1 isText
      exact ⟨content, mapError_eq_ok.1 exported, rfl⟩
    · rintro ⟨content, exported, rfl⟩
      exact bind_eq_ok.2 ⟨_, mapError_eq_ok.2 exported, shownCodes_eq_ok_iff.2 ⟨content, rfl, rfl⟩⟩
  · cases source

/-- Such an export leaves the store alone. -/
theorem run_shows_export {arguments : List String}
    (asked : Invocation.ofArguments arguments = .ok { options, command := some .exportTo })
    (noOutput : options.outputPath? = none) {configuration : WideConfiguration}
    (source : options.wideConfiguration? store = some configuration) {content : List Char}
    (exported : configuration.exportAs options.formatDatum = .ok (content.map .char)) :
    (run pictures store arguments).ending = .exit 0 ∧
      (run pictures store arguments).store = store ∧
      (run pictures store arguments).output = Terminal.exportText content := by
  have shown := (@shown_exportTo_iff pictures _ _ _ source noOutput _).2 ⟨content, exported, rfl⟩
  have ending := @exit_of_shown pictures _ options.threshold .exportTo _ shown
  rw [run_of_asked asked, store_outcome, store_run_of_noOutput store fun _ => noOutput]
  exact ⟨ending, rfl, Except.ok.inj ((shown_of_exit ending).symm.trans shown)⟩

end Command

end Roster.CommandLine
