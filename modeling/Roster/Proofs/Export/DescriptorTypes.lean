import Roster.Export
import Roster.Proofs.Yaml.CoreSchema

/-!
# Descriptors keep their type

An exported YAML document has one line for each descriptor, and what stands there tells every
reader of version 1.2 that it is a string: a descriptor that would read as null, a truth value,
an integer or a decimal number is quoted. Other words of letters are written as they are.
-/

namespace Roster.Configuration

open Language (append_mem_mul)
open Roster.Yaml.CoreSchema (nonString run sign words exponent decimalPart mem_run mem_many
  mem_optional isImplicit_of_mem_nonString)

/-- The document that lists scalars, one on each line. -/
def scalarListing (forms : List (List Char)) : List Char :=
  if forms.isEmpty then "nodes: []\n".toList
  else "nodes:\n".toList ++ forms.flatMap fun form => "  - ".toList ++ form ++ ['\n']

/-- What is written for a descriptor, by its type as a plain scalar. -/
structure KeepsType (descriptor : String) (form : List Char) : Prop where
  quoted : descriptor.toList ∈ nonString → form = '\'' :: descriptor.toList ++ ['\'']
  plain : descriptor.toList ∈ run Char.isAlpha → descriptor.toList ∉ nonString →
    form = descriptor.toList

theorem keepsType_scalar (descriptor : String) :
    KeepsType descriptor (Yaml.Presentation.scalar itemColumn descriptor.toList) where
  quoted := Yaml.CoreSchema.scalar_of_mem_nonString itemColumn
  plain := Yaml.CoreSchema.scalar_of_letters itemColumn

/-- An exported document lists the scalars of the descriptors. -/
theorem toYaml_eq_scalarListing (configuration : Configuration) :
    configuration.toYaml = scalarListing (configuration.descriptors.map fun descriptor =>
      Yaml.Presentation.scalar itemColumn descriptor.toList) := by
  have isEmpty : configuration.entries.isEmpty = configuration.descriptors.isEmpty :=
    List.isEmpty_map.symm
  rw [toYaml, isEmpty, scalarListing, List.isEmpty_map, List.flatMap_map]
  rfl

/-- In an exported document, every descriptor that reads as null, a truth value, an integer or a
decimal number is quoted, and every other word of letters is written plain. -/
theorem toYaml_keepsTypes (configuration : Configuration) :
    ∃ forms, configuration.toYaml = scalarListing forms ∧
      List.Forall₂ KeepsType configuration.descriptors forms := by
  refine ⟨_, toYaml_eq_scalarListing configuration, ?_⟩
  rw [List.forall₂_map_right_iff, List.forall₂_same]
  exact fun descriptor _ => keepsType_scalar descriptor

/-- A configuration with a decimal number and a word that is almost one for null. -/
def numberAndWord : Configuration := { entries := [⟨0, "-1.e+5"⟩, ⟨1, "nULL"⟩] }

theorem toYaml_keepsTypes_number :
    "-1.e+5".toList ∈ nonString ∧ "nULL".toList ∈ run Char.isAlpha ∧ "nULL".toList ∉ nonString ∧
      numberAndWord.toYaml = scalarListing ["'-1.e+5'".toList, "nULL".toList] := by
  have isDigit : ∀ {c : Char}, c.isDigit = true → [c] ∈ run Char.isDigit := fun isDigit =>
    mem_run.2 ⟨List.cons_ne_nil _ _, List.forall_mem_singleton.2 isDigit⟩
  have minus : ['-'] ∈ sign := mem_optional.2 (.inr ⟨"-", by decide, rfl⟩)
  have plus : ['+'] ∈ sign := mem_optional.2 (.inr ⟨"+", by decide, rfl⟩)
  have letter : ['e'] ∈ words ["e", "E"] := ⟨"e", by decide, rfl⟩
  have point : ['.'] ∈ words ["."] := ⟨".", by decide, rfl⟩
  have isExponent : "e+5".toList ∈ exponent :=
    append_mem_mul letter (append_mem_mul plus (isDigit rfl))
  have isPart : ".e+5".toList ∈ decimalPart := .inl (append_mem_mul point
    (append_mem_mul (mem_many.2 (List.forall_mem_nil _)) (mem_optional.2 (.inr isExponent))))
  have isNumber : "-1.e+5".toList ∈ nonString :=
    .inr (append_mem_mul minus (append_mem_mul (isDigit rfl) isPart))
  have isWord : "nULL".toList ∈ run Char.isAlpha :=
    mem_run.2 ⟨by decide, List.all_eq_true.1 (by decide)⟩
  have isString : "nULL".toList ∉ nonString := fun member => by
    have implicit := isImplicit_of_mem_nonString member
    revert implicit
    decide +kernel
  obtain ⟨forms, written, kept⟩ := toYaml_keepsTypes numberAndWord
  refine ⟨isNumber, isWord, isString, written.trans ?_⟩
  obtain ⟨number, others, isQuoted, areOthers, rfl⟩ := List.forall₂_cons_left_iff.1 kept
  obtain ⟨word, none, isPlain, isEnd, rfl⟩ := List.forall₂_cons_left_iff.1 areOthers
  rw [List.forall₂_nil_left_iff.1 isEnd, isQuoted.quoted isNumber, isPlain.plain isWord isString]
  rfl

end Roster.Configuration
