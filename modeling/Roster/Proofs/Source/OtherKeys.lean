import Roster.Proofs.Export.TextFormat
import Roster.Proofs.Export.YamlDocument

/-!
# Other keys

A YAML file may hold more than its nodes. Lines with other keys, in front of an exported
document and behind it, are entries of the same mapping; the reader looks up the key of the
nodes and nothing else, so that the file is read as if they were not there.
-/

namespace Roster

open Roster.Storage (Path Store)
open Roster.Yaml (WrittenEntry)

/-- A word of letters and digits, as long as a key may well be. -/
structure IsShortWord (word : String) : Prop where
  nonempty : word ≠ ""
  short : word.length ≤ 100
  letters : ∀ c ∈ word.toList, c.isAlphanum = true

/-- Letters and digits make a plain word. -/
theorem IsShortWord.isPlainWord {word : String} (isWord : IsShortWord word) :
    Yaml.IsPlainWord word.toList where
  begins := by
    obtain ⟨c, others, split⟩ :=
      List.exists_cons_of_ne_nil fun none => isWord.nonempty (String.toList_eq_nil_iff.1 none)
    exact ⟨c, others, split, isWord.letters c (by simp [split])⟩
  inside c member := by rw [Yaml.isPlainWordCharacter, isWord.letters c member, Bool.true_or]

/-- A line of a YAML file with a word as its key and a word as its value. -/
structure WordEntry where
  key : String
  value : String
  isKey : IsShortWord key
  isValue : IsShortWord value

namespace WordEntry

/-- The line of an entry. -/
def line (entry : WordEntry) : List Char :=
  entry.key.toList ++ ": ".toList ++ entry.value.toList ++ ['\n']

/-- The lines of entries. -/
def lines (entries : List WordEntry) : List Char :=
  entries.flatMap line

/-- The line of an entry is an entry of a mapping. -/
def written (entry : WordEntry) : WrittenEntry where
  key := entry.key.toList
  written := ' ' :: (entry.value.toList ++ ['\n'])
  spelled := [.scalar entry.value]
  meant := .text entry.value
  steps := 1
  isPlain := entry.isKey.isPlainWord.isPlain
  short := Nat.le_trans entry.isKey.short (by decide)
  setOff := ⟨' ', _, rfl, rfl⟩
  gives := by simpa using Yaml.Scan.givesValue_line (.plain entry.isValue.isPlainWord.isPlain)
  spells := (Yaml.Compose.spells_scalar entry.value).spellsValue

theorem text_written (entry : WordEntry) : entry.written.text = entry.line := by
  simp [WrittenEntry.text, written, line]

theorem flatMap_text_written (entries : List WordEntry) :
    (entries.map written).flatMap WrittenEntry.text = lines entries := by
  simp [List.flatMap_map, text_written, lines]

/-- The characters of words may be written in a YAML file. -/
theorem isEverWritten_of_mem_lines {entries : List WordEntry} :
    ∀ c ∈ lines entries, Yaml.Presentation.isEverWritten c = true := by
  have ofWord {word : String} (isWord : IsShortWord word) :
      ∀ c ∈ word.toList, Yaml.Presentation.isEverWritten c = true := fun c member =>
    have range := Yaml.toNat_of_plainWordCharacter (isWord.isPlainWord.inside c member)
    Yaml.Presentation.isEverWritten_of_not_needsEscape
      (Yaml.Presentation.needsEscape_of_ascii (Nat.le_trans (by decide) range.1) range.2)
  intro c member
  obtain ⟨entry, -, inLine⟩ := List.mem_flatMap.1 member
  simp only [line, List.mem_append, List.mem_singleton] at inLine
  rcases inLine with ((inKey | inSign) | inValue) | rfl
  · exact ofWord entry.isKey c inKey
  · exact List.all_eq_true.1 (by decide : ": ".toList.all Yaml.Presentation.isEverWritten) c inSign
  · exact ofWord entry.isValue c inValue
  · rfl

/-- A byte order mark stands in front of no lines. -/
theorem head?_lines_append_ne {entries : List WordEntry} {rest : List Char}
    (noMark : rest.head? ≠ some Text.Utf8.markCharacter) :
    (lines entries ++ rest).head? ≠ some Text.Utf8.markCharacter := by
  cases entries with
  | nil => exact noMark
  | cons entry others =>
      obtain ⟨c, more, split, isLetter⟩ := entry.isKey.isPlainWord.begins
      have other := Yaml.ne_of_isAlphanum isLetter Text.Utf8.markCharacter rfl
      simpa [lines, line, split] using other

end WordEntry

section Surrounded

variable {configuration : Configuration} {before after : List WordEntry}

/-- The text of a document with other entries in front of it and behind it. -/
def surrounded (configuration : Configuration) (before after : List WordEntry) : List Char :=
  WordEntry.lines before ++ configuration.toYaml ++ WordEntry.lines after

/-- The value of such a text. -/
def surroundedValue (configuration : Configuration) (before after : List WordEntry) :
    List (Yaml.Key × Yaml.Value) :=
  let meant (entry : WordEntry) := (Yaml.Key.text entry.key, Yaml.Value.text entry.value)
  before.map meant ++
    (.text nodesKey, .sequence (configuration.descriptors.map .string)) :: after.map meant

theorem isEverWritten_of_mem_surrounded :
    ∀ c ∈ surrounded configuration before after, Yaml.Presentation.isEverWritten c = true := by
  intro c member
  rw [surrounded, List.mem_append, List.mem_append] at member
  rcases member with (inBefore | inDocument) | inAfter
  · exact WordEntry.isEverWritten_of_mem_lines c inBefore
  · exact Configuration.isEverWritten_of_mem_toYaml c inDocument
  · exact WordEntry.isEverWritten_of_mem_lines c inAfter

/-- A document with other entries around it is loaded as the mapping of all of them. -/
theorem load_surrounded (built : configuration.Built)
    (distinct : (nodesKey :: (before ++ after).map WordEntry.key).Nodup)
    (version : Option Yaml.Version) :
    Yaml.load version (surrounded configuration before after) =
      (.ok (some (.mapping (surroundedValue configuration before after))), version) := by
  obtain ⟨entry, key, text, meant⟩ := Configuration.exists_writtenEntry built
  let entries := before.map WordEntry.written ++ entry :: after.map WordEntry.written
  have whole : entries.flatMap WrittenEntry.text = surrounded configuration before after := by
    simp only [entries, surrounded, List.flatMap_append, List.flatMap_cons, text,
      WordEntry.flatMap_text_written, List.append_assoc]
  have keys : (entries.map fun entry => String.ofList entry.key).Nodup := by
    have same : (entries.map fun entry => String.ofList entry.key).Perm
        (nodesKey :: (before ++ after).map WordEntry.key) := by
      simp only [entries, List.map_append, List.map_cons, key, List.map_map]
      simp [Function.comp_def, WordEntry.written]
    exact same.nodup_iff.2 distinct
  have loaded := WrittenEntry.load_entries version (by simp [entries]) keys
    fun c member => Yaml.Presentation.isReadable_of_isEverWritten
      (isEverWritten_of_mem_surrounded c (whole ▸ member))
  rw [whole] at loaded
  rw [loaded]
  simp [WrittenEntry.value, entries, surroundedValue, key, meant, WordEntry.written,
    Function.comp_def]

/-- Among the entries, the key of the nodes is found once. -/
theorem lookup_surroundedValue
    (distinct : (nodesKey :: (before ++ after).map WordEntry.key).Nodup) :
    (surroundedValue configuration before after).lookup (.text nodesKey) =
      some (.sequence (configuration.descriptors.map .string)) := by
  have absent : (before.map fun entry =>
      (Yaml.Key.text entry.key, Yaml.Value.text entry.value)).lookup (.text nodesKey) = none := by
    rw [List.lookup_eq_none_iff]
    intro pair member
    obtain ⟨entry, isEntry, rfl⟩ := List.mem_map.1 member
    have differs : nodesKey ≠ entry.key := fun same =>
      (List.nodup_cons.1 distinct).1 (same ▸ List.mem_map_of_mem (List.mem_append_left _ isEntry))
    simpa using differs
  rw [surroundedValue, List.lookup_append, absent]
  simp

/-- Such a text is found in a file as it is. -/
theorem HoldsText.readFileText_surrounded {store : Store} {path : Path}
    (holds : HoldsText store path (surrounded configuration before after)) :
    Roster.readFileText store path = .ok (surrounded configuration before after) := by
  have noMark : (surrounded configuration before after).head? ≠
      some Text.Utf8.markCharacter := by
    rw [surrounded, List.append_assoc]
    refine WordEntry.head?_lines_append_ne ?_
    rw [List.head?_append, configuration.head?_toYaml, Option.some_or]
    decide
  have noReturn : '\r' ∉ surrounded configuration before after := fun member => by
    cases isEverWritten_of_mem_surrounded _ member
  rw [holds.readFileText, withoutMark_eq_self noMark, Text.unifyNewlines_of_not_mem noReturn]

/-- Lines with other keys around an exported document make no difference: whatever words the
keys and the values are, however many lines there are, and whatever the reader has read
before, the file is read as the configuration that was exported. -/
theorem other_keys_ignored (built : configuration.Built)
    (distinct : (nodesKey :: (before ++ after).map WordEntry.key).Nodup) {store : Store}
    {path : Path} (holds : HoldsText store path (surrounded configuration before after))
    (version : Option Yaml.Version) :
    ∃ reading, ((Reader.yamlFile path version).read store).1 = .ok reading ∧
      reading.configuration = configuration := by
  refine ⟨Reading.counted configuration path.toString, ?_, rfl⟩
  simp only [Reader.read, readYamlFile, holds.readFileText_surrounded,
    load_surrounded built distinct]
  exact readDocument_of_nodes path built (lookup_surroundedValue distinct)

end Surrounded

/-- A line in front of a document. -/
def versionEntry : WordEntry :=
  ⟨"version", "2", ⟨by decide, by decide, List.all_eq_true.1 (by decide)⟩,
    ⟨by decide, by decide, List.all_eq_true.1 (by decide)⟩⟩

/-- A line behind a document, with words that elsewhere stand for other values. -/
def ownerEntry : WordEntry :=
  ⟨"true", "null", ⟨by decide, by decide, List.all_eq_true.1 (by decide)⟩,
    ⟨by decide, by decide, List.all_eq_true.1 (by decide)⟩⟩

/-- A document with descriptors in each style, and with lines on both sides. -/
def surroundedText : List Char :=
  surrounded Configuration.eachStyle [versionEntry] [ownerEntry]

theorem other_keys_ignored_each_style :
    HoldsText (storeHolding "c.yaml" surroundedText) (.ofString "c.yaml") surroundedText ∧
      ∃ reading, ((Reader.yamlFile (.ofString "c.yaml") none).read
          (storeHolding "c.yaml" surroundedText)).1 = .ok reading ∧
        reading.configuration = Configuration.eachStyle := by
  have holds : HoldsText (storeHolding "c.yaml" surroundedText) (.ofString "c.yaml")
      (surrounded Configuration.eachStyle [versionEntry] [ownerEntry]) :=
    IsFilePlace.holdsText ⟨by decide +kernel, by decide +kernel, by decide⟩ _
  exact ⟨holds, other_keys_ignored Configuration.built_eachStyle (by decide) holds none⟩

example : String.ofList surroundedText =
    "version: 2\nnodes:\n  - db-01\n  - '#1'\n  - \"\\uFEFF'true'\"\n  - db-01\ntrue: null\n" := by
  cbv

end Roster
