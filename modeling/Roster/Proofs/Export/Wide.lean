import Roster.Export.Wide
import Roster.Proofs.Configuration.Wide

/-!
# Configurations as wide ones

A configuration is exported and written as the wide configuration that it is, so what holds
of all wide configurations holds of configurations too.
-/

namespace Roster

open Roster.Storage (Path Store)
open Roster.Text (CodePoint Wide)

namespace WideConfiguration

variable {configuration : WideConfiguration} {content : List CodePoint}

/-- A plain text that is not refused has a line for each descriptor, and none of them looks
like a comment. -/
theorem toText_eq_ok_iff :
    configuration.toText = .ok content ↔
      (∀ descriptor ∈ configuration.descriptors, looksLikeComment descriptor = false) ∧
        content = configuration.descriptors.flatMap fun descriptor =>
          descriptor.codes ++ [.char '\n'] := by
  unfold toText
  cases found : configuration.descriptors.find? looksLikeComment with
  | some descriptor =>
      refine iff_of_false (by simp) ?_
      rintro ⟨noComment, -⟩
      have looks := List.find?_some found
      rw [noComment descriptor (List.mem_of_find?_eq_some found)] at looks
      cases looks
  | none =>
      have noComment : ∀ descriptor ∈ configuration.descriptors,
          looksLikeComment descriptor = false := fun descriptor member =>
        Bool.eq_false_iff.2 (List.find?_eq_none.1 found descriptor member)
      exact ⟨fun exported => ⟨noComment, (Except.ok.inj exported).symm⟩,
        fun ⟨_, same⟩ => congrArg Except.ok same.symm⟩

/-- The refusal names the first descriptor that looks like a comment. -/
theorem toText_eq_error_iff {error : ExportError} :
    configuration.toText = .error error ↔
      ∃ descriptor, configuration.descriptors.find? looksLikeComment = some descriptor ∧
        error = .looksLikeComment descriptor := by
  unfold toText
  cases configuration.descriptors.find? looksLikeComment with
  | some descriptor => simp [eq_comm]
  | none => simp

/-- Exactly a plain text of strings has no half in it. -/
theorem any_isHalf_of_toText (exported : configuration.toText = .ok content) :
    content.any CodePoint.isHalf = configuration.isHalved := by
  obtain ⟨-, rfl⟩ := toText_eq_ok_iff.1 exported
  rw [List.any_flatMap, isHalved]
  refine congrArg (configuration.descriptors.any ·) (funext fun descriptor => ?_)
  simp [Wide.isHalved_eq, CodePoint.isHalf]

/-- An export has a half in it exactly if it is the plain text of a configuration with a
half. -/
theorem exportAs_halved_iff {format : Datum} :
    (∃ content, configuration.exportAs format = .ok content ∧
        content.any CodePoint.isHalf = true) ↔
      Format.ofDatum? format = some .text ∧ (∃ content, configuration.toText = .ok content) ∧
        configuration.isHalved = true := by
  unfold exportAs
  cases Format.ofDatum? format with
  | none => simp
  | some known =>
      cases known with
      | yaml => simp [exportIn, CodePoint.isHalf]
      | text =>
          constructor
          · rintro ⟨content, exported, halved⟩
            exact ⟨rfl, ⟨content, exported⟩, any_isHalf_of_toText exported ▸ halved⟩
          · rintro ⟨-, ⟨content, exported⟩, halved⟩
            exact ⟨content, exported, any_isHalf_of_toText exported ▸ halved⟩

end WideConfiguration

namespace Configuration

variable (configuration : Configuration)

theorem wide_toYaml : configuration.wide.toYaml = configuration.toYaml := by
  have sameItems : configuration.wide.descriptors.flatMap WideConfiguration.yamlItem =
      configuration.descriptors.flatMap yamlItem := List.flatMap_map _ _ _
  have bothEmpty : configuration.wide.descriptors.isEmpty = configuration.entries.isEmpty := by
    rw [descriptors_wide, descriptors, List.isEmpty_map, List.isEmpty_map]
  rw [WideConfiguration.toYaml, toYaml, sameItems, bothEmpty]

theorem looksLikeComment_plain (descriptor : String) :
    WideConfiguration.looksLikeComment descriptor = looksLikeComment descriptor := by
  rw [WideConfiguration.looksLikeComment, looksLikeComment, Wide.codes, List.head?_map]
  cases descriptor.toList with
  | nil => rfl
  | cons c rest => by_cases same : c = '#' <;> simp [same]

theorem wide_toText :
    configuration.wide.toText = configuration.toText.map (List.map CodePoint.char) := by
  have sameTest : WideConfiguration.looksLikeComment ∘ Wide.plain = looksLikeComment :=
    funext looksLikeComment_plain
  unfold WideConfiguration.toText toText
  rw [descriptors_wide, List.find?_map, sameTest]
  cases configuration.descriptors.find? looksLikeComment with
  | some descriptor => rfl
  | none => simp [Except.map, List.flatMap_map, List.map_flatMap, Wide.codes]

theorem wide_exportAs (format : Datum) :
    configuration.wide.exportAs format =
      (configuration.exportAs format).map (List.map CodePoint.char) := by
  unfold WideConfiguration.exportAs exportAs
  cases Format.ofDatum? format with
  | none => rfl
  | some format =>
      cases format with
      | yaml =>
          exact congrArg (fun document => Except.ok (List.map CodePoint.char document))
            configuration.wide_toYaml
      | text => exact configuration.wide_toText

/-- A configuration is written as the wide one that it is. -/
theorem wide_write (store : Store) (target : Path) (format : Datum) :
    configuration.wide.write store target format = configuration.write store target format := by
  unfold WideConfiguration.write write
  rw [wide_exportAs, size_wide]
  cases configuration.exportAs format with
  | error cause => rfl
  | ok content =>
      cases beside : temporaryPath? target with
      | none => rfl
      | some temporary =>
          rcases done : store.replace temporary target (Text.Utf8.encode content) with
            ⟨failure | ⟨⟨⟩⟩, after⟩ <;>
          simp [Except.map, Text.Utf8.encodeCodes_chars, done]

end Configuration

end Roster
