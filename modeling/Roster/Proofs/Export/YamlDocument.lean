import Mathlib
import Roster.Proofs.Export.ReadBack
import Roster.Proofs.Source.Nodes
import Roster.Proofs.Yaml.EntryLines
import Roster.Proofs.Yaml.Rendered
import Roster.Source.Reader

/-!
# YAML documents read back

An exported YAML document is a mapping whose one value is a sequence of rendered
descriptors, so it is loaded as just that, and reading adds the same descriptors
again in the same order.
-/

namespace Roster

open Roster.Storage (Path Store)
open Roster.Yaml (Value)

namespace Configuration

/-- The document of a configuration. -/
def document (configuration : Configuration) : Value :=
  .mapping [(.text nodesKey, .sequence (configuration.descriptors.map .string))]

/-- Reading the document of a built configuration gives the configuration. -/
theorem readDocument_document {configuration : Configuration} (built : configuration.Built)
    (path : Path) :
    readDocument path (some configuration.document) =
      .ok (Reading.counted configuration path.toString) :=
  readDocument_of_nodes path built (by rw [List.lookup_cons, beq_self_eq_true])

/-- The key of the nodes can be written plain. -/
theorem isPlain_nodesKey : Yaml.IsPlain nodesKey.toList := by
  refine ⟨by decide, Text.unbroken_iff.2 (by decide), by decide, by decide, ?_, by decide,
    by decide, by decide⟩
  intro c isHead
  obtain rfl := Option.some.inj isHead
  rw [Bool.eq_false_iff, Ne, Yaml.isOpeningIndicator_iff]
  decide

/-- Ending each part with a character is beginning each part with it, except at the
two ends. -/
theorem cons_flatMap_append_singleton {α β : Type} (mark : β) (part : α → List β)
    (whole : List α) :
    mark :: whole.flatMap (fun a => part a ++ [mark]) =
      whole.flatMap (fun a => mark :: part a) ++ [mark] := by
  induction whole with
  | nil => rfl
  | cons a others inductionHypothesis =>
      rw [List.flatMap_cons, List.flatMap_cons, List.append_assoc, List.append_assoc,
        ← inductionHypothesis]
      rfl

/-- With at least one entry, the exported text has a line for the key and a line for
each descriptor. -/
theorem toYaml_eq_sequenceDocument {configuration : Configuration}
    (nonempty : configuration.entries ≠ []) :
    configuration.toYaml = Yaml.sequenceDocument nodesKey.toList 2
      (configuration.descriptors.map fun descriptor =>
        Yaml.Presentation.scalar itemColumn descriptor.toList) ['\n'] := by
  have isEmpty : configuration.entries.isEmpty = false := by simpa using nonempty
  have lines := cons_flatMap_append_singleton '\n' (fun descriptor : String =>
    List.replicate 2 ' ' ++ "- ".toList ++
      Yaml.Presentation.scalar itemColumn descriptor.toList) configuration.descriptors
  rw [toYaml, isEmpty, Yaml.sequenceDocument, Yaml.Scan.entryLines, List.flatMap_map, ← lines]
  rfl

/-- Exported text may be read. -/
theorem isEverWritten_of_mem_toYaml {configuration : Configuration} :
    ∀ c ∈ configuration.toYaml, Yaml.Presentation.isEverWritten c = true := by
  have keyLine : ∀ c ∈ nodesKey.toList ++ ":\n".toList,
      Yaml.Presentation.isEverWritten c = true := List.all_eq_true.1 (by decide)
  have dash : ∀ c ∈ "  - ".toList, Yaml.Presentation.isEverWritten c = true :=
    List.all_eq_true.1 (by decide)
  unfold toYaml
  split
  · exact List.all_eq_true.1 (by decide)
  · intro c member
    rcases List.mem_append.1 member with inKeyLine | inItems
    · exact keyLine c inKeyLine
    · obtain ⟨descriptor, -, inItem⟩ := List.mem_flatMap.1 inItems
      unfold yamlItem at inItem
      rw [List.mem_append, List.mem_append, List.mem_singleton] at inItem
      rcases inItem with (inDash | inScalar) | rfl
      · exact dash c inDash
      · exact Yaml.Presentation.isEverWritten_of_mem_scalar c inScalar
      · rfl

/-- Exported text begins with the key of the nodes. -/
theorem head?_toYaml (configuration : Configuration) : configuration.toYaml.head? = some 'n' := by
  unfold toYaml
  split <;> rfl

/-- The entry for the nodes of a configuration without entries. -/
def emptyEntry : Yaml.WrittenEntry where
  key := nodesKey.toList
  written := " []\n".toList
  spelled := [.flowSequenceStart, .flowSequenceEnd]
  meant := .sequence []
  steps := 2
  isPlain := isPlain_nodesKey
  short := by decide
  setOff := ⟨' ', _, rfl, rfl⟩
  gives := Yaml.Scan.givesValue_emptyFlow
  spells := Yaml.Compose.spells_emptyFlow.spellsValue

/-- Scalars that are written one below the other under the key of the nodes are an entry that
means the sequence of their texts. -/
theorem exists_sequenceEntry {form text : List Char} {forms texts : List (List Char)}
    (isWritten : Yaml.Written form text) (areWritten : List.Forall₂ Yaml.Written forms texts) :
    ∃ entry : Yaml.WrittenEntry, entry.key = nodesKey.toList ∧
      entry.text = Yaml.sequenceDocument nodesKey.toList 2 (form :: forms) ['\n'] ∧
      entry.meant = .sequence ((text :: texts).map fun word => .text (String.ofList word)) := by
  obtain ⟨spelled, kinds, spell⟩ := Yaml.exists_spells_entryKinds (text :: texts)
  have gives := Yaml.Scan.givesValue_sequence (by decide : 0 < 2) isWritten areWritten
  rw [kinds] at gives
  let entry : Yaml.WrittenEntry :=
    { key := nodesKey.toList
      written := _
      spelled := _
      meant := _
      steps := _
      isPlain := isPlain_nodesKey
      short := by decide
      setOff := ⟨'\n', _, rfl, rfl⟩
      gives
      spells := (Yaml.Compose.spells_sequence spell).spellsValue }
  exact ⟨entry, rfl, rfl, rfl⟩

/-- The exported text is one entry of a mapping, with the key of the nodes. -/
theorem exists_writtenEntry {configuration : Configuration} (built : configuration.Built) :
    ∃ entry : Yaml.WrittenEntry, entry.key = nodesKey.toList ∧ entry.text = configuration.toYaml ∧
      entry.meant = .sequence (configuration.descriptors.map .string) := by
  have written : ∀ descriptor ∈ configuration.descriptors,
      Yaml.Written (Yaml.Presentation.scalar itemColumn descriptor.toList) descriptor.toList := by
    intro descriptor member
    obtain ⟨nonempty, noBlank⟩ := built.isDescriptor descriptor member
    exact Yaml.Presentation.written_scalar itemColumn nonempty noBlank
  cases same : configuration.descriptors with
  | nil =>
      have none : configuration.entries = [] := List.map_eq_nil_iff.1 same
      refine ⟨emptyEntry, rfl, ?_, rfl⟩
      rw [toYaml, none]
      rfl
  | cons first others =>
      have nonempty : configuration.entries ≠ [] := by
        rintro none
        simp [descriptors, none] at same
      rw [toYaml_eq_sequenceDocument nonempty]
      rw [same] at written ⊢
      have areWritten : List.Forall₂ Yaml.Written
          (others.map fun descriptor => Yaml.Presentation.scalar itemColumn descriptor.toList)
          (others.map String.toList) := by
        rw [List.forall₂_map_left_iff, List.forall₂_map_right_iff, List.forall₂_same]
        exact fun descriptor member => written descriptor (List.mem_cons_of_mem _ member)
      obtain ⟨entry, key, text, meant⟩ :=
        exists_sequenceEntry (written first List.mem_cons_self) areWritten
      refine ⟨entry, key, text, meant.trans ?_⟩
      simp [Function.comp_def]

/-- The exported text of a built configuration is loaded as its document. -/
theorem load_toYaml {configuration : Configuration} (built : configuration.Built)
    (version : Option Yaml.Version) :
    Yaml.load version configuration.toYaml = (.ok (some configuration.document), version) := by
  obtain ⟨entry, key, text, meant⟩ := exists_writtenEntry built
  have whole : [entry].flatMap Yaml.WrittenEntry.text = configuration.toYaml := by simp [text]
  have loaded := Yaml.WrittenEntry.load_entries version (List.cons_ne_nil entry []) (by simp)
    fun c member => Yaml.Presentation.isReadable_of_isEverWritten
      (isEverWritten_of_mem_toYaml c (whole ▸ member))
  rw [whole] at loaded
  rw [loaded, document, Yaml.WrittenEntry.value, List.map_singleton, key, meant,
    String.ofList_toList]

/-- Exported text has neither a byte order mark in front nor carriage returns. -/
theorem unifyNewlines_withoutMark_toYaml (configuration : Configuration) :
    Text.unifyNewlines (Text.Utf8.withoutMark configuration.toYaml) = configuration.toYaml := by
  have noMark : Text.Utf8.withoutMark configuration.toYaml = configuration.toYaml := by
    unfold toYaml
    split <;> rfl
  have noReturn : '\r' ∉ configuration.toYaml := fun member => by
    have isWritten := isEverWritten_of_mem_toYaml _ member
    cases isWritten
  rw [noMark, Text.unifyNewlines_of_not_mem noReturn]

/-- A file that holds the document of a built configuration reads as the configuration. -/
theorem read_yamlFile_toYaml {configuration : Configuration} (built : configuration.Built)
    {store : Store} {path : Path} (holds : HoldsText store path configuration.toYaml) :
    ((Reader.ofYamlFile path).read store).1 =
      .ok (Reading.counted configuration path.toString) := by
  simp only [Reader.ofYamlFile, Reader.read, readYamlFile, holds.readFileText,
    unifyNewlines_withoutMark_toYaml, load_toYaml built]
  exact readDocument_document built path

/-- A written document is found as it was exported. -/
theorem readFileText_of_write_yaml {configuration : Configuration} {store : Store} {target : Path}
    {record : LogRecord}
    (written : (configuration.write store target (.text "yaml")).1 = .ok record) :
    readFileText (configuration.write store target (.text "yaml")).2 target =
      .ok configuration.toYaml := by
  rw [readFileText_of_write written rfl, unifyNewlines_withoutMark_toYaml]

/-- A built configuration reads back from its YAML document. -/
theorem yaml_reads_back {configuration : Configuration} (built : configuration.Built)
    {store : Store} {target : Path} {record : LogRecord}
    (written : (configuration.write store target (.text "yaml")).1 = .ok record) :
    ∃ reading, ((Reader.ofYamlFile target).read
        (configuration.write store target (.text "yaml")).2).1 = .ok reading ∧
      reading.configuration = configuration := by
  refine ⟨Reading.counted configuration target.toString, ?_, rfl⟩
  simp only [Reader.ofYamlFile, Reader.read, readYamlFile, readFileText_of_write_yaml written,
    load_toYaml built]
  exact readDocument_document built target

/-- Descriptors in each of the styles, one of them twice. -/
def eachStyle : Configuration :=
  { entries :=
    [{ index := 0, descriptor := "db-01" }, { index := 1, descriptor := "#1" },
      { index := 2, descriptor := "\ufeff'true'" }, { index := 3, descriptor := "db-01" }] }

theorem built_eachStyle : eachStyle.Built :=
  .add (.add (.add (.add .empty "db-01" rfl) "#1" rfl) "\ufeff'true'" rfl) "db-01" rfl

/-- Plain and quoted descriptors, also equal ones, read back. -/
theorem yaml_reads_back_each_style :
    eachStyle.Built ∧
      (eachStyle.write .empty (.ofString "out") (.text "yaml")).1 =
        .ok (writtenRecord eachStyle.size (.ofString "out") (.text "yaml")) ∧
      ∃ reading, ((Reader.ofYamlFile (.ofString "out")).read
          (eachStyle.write .empty (.ofString "out") (.text "yaml")).2).1 = .ok reading ∧
        reading.configuration = eachStyle := by
  have written : (eachStyle.write .empty (.ofString "out") (.text "yaml")).1 =
      .ok (writtenRecord eachStyle.size (.ofString "out") (.text "yaml")) := by decide +kernel
  exact ⟨built_eachStyle, written, yaml_reads_back built_eachStyle written⟩

end Configuration

end Roster
