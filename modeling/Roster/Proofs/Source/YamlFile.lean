import Roster.Proofs.Export.YamlDocument

/-!
# Reading YAML files written by hand

A file written by hand may give its nodes in more ways than an exported one: each item in
a style of its own, the sequence at any indentation or in brackets behind the key, and a
newline at the end or none. None of this matters: whatever the layout, reading gives the
items as they are, and none of them is taken for a number or a boolean.
-/

namespace Roster

open Roster.Storage (Path Store)
open Roster.Yaml (ScalarStyle Portable)

/-- A descriptor of visible characters of ASCII, and the style in which it is written. -/
structure YamlItem where
  style : ScalarStyle
  text : List Char
  nonempty : text ≠ []
  visible : ∀ c ∈ text, 0x21 ≤ c.toNat ∧ c.toNat ≤ 0x7E
  isWord : style = .plain → Yaml.IsPlainWord text

namespace YamlItem

/-- What is written for an item. -/
def form (item : YamlItem) : List Char :=
  match item.style with
  | .plain => item.text
  | .singleQuoted => '\'' :: Yaml.Token.doubledQuotes item.text ++ ['\'']
  | .doubleQuoted => '"' :: Yaml.Token.backslashed item.text ++ ['"']

/-- The descriptor of an item. -/
def descriptor (item : YamlItem) : String :=
  String.ofList item.text

theorem unbroken (item : YamlItem) : Text.Unbroken item.text := fun c member =>
  Yaml.isBlank_of_visibleAscii (item.visible c member).1 (item.visible c member).2

theorem isDescriptor (item : YamlItem) : IsDescriptor item.descriptor := by
  constructor
  · rw [descriptor, String.toList_ofList]
    exact item.nonempty
  · rw [descriptor, String.toList_ofList]
    exact item.unbroken

/-- The characters of an item need no escape, except for quotes and backslashes. -/
theorem not_needsEscape (item : YamlItem) :
    ∀ c ∈ item.text, Yaml.Presentation.needsEscape c = false := fun c member =>
  have range := item.visible c member
  Yaml.Presentation.needsEscape_of_ascii (Nat.le_trans (by decide) range.1) range.2

/-- Between double quotes only quotes and backslashes of an item need an escape. -/
theorem doubleQuoted (item : YamlItem) :
    Yaml.Token.DoubleQuoted (Yaml.Token.backslashed item.text) item.text := by
  refine Yaml.Token.doubleQuoted_backslashed fun c member escaped => ?_
  have range := item.visible c member
  have others : c ≠ '\x85' ∧ c ≠ '\u2028' ∧ c ≠ '\u2029' := by
    refine ⟨?_, ?_, ?_⟩ <;> (rintro rfl; exact absurd range.2 (by decide))
  simpa [Yaml.Presentation.isEscaped, item.not_needsEscape c member, others] using escaped

/-- What is written for an item stands for it in any context. -/
theorem portable (item : YamlItem) : Portable item.form item.text := by
  unfold form
  split
  · rename_i isPlain
    exact .plain (item.isWord isPlain)
  · refine Yaml.portable_single item.unbroken fun member => ?_
    cases item.not_needsEscape Yaml.endOfText member
  · exact Yaml.portable_double item.doubleQuoted item.unbroken

/-- What is written for an item needs no escape. -/
theorem isEverWritten (item : YamlItem) :
    ∀ c ∈ item.form, Yaml.Presentation.isEverWritten c = true := by
  have inside : ∀ c ∈ item.text, Yaml.Presentation.isEverWritten c = true := fun c member =>
    Yaml.Presentation.isEverWritten_of_not_needsEscape (item.not_needsEscape c member)
  intro c member
  unfold form at member
  split at member
  · exact inside c member
  · rw [List.cons_append, List.mem_cons, List.mem_append, List.mem_singleton] at member
    rcases member with rfl | isInside | rfl
    · rfl
    · exact inside c (Yaml.Token.mem_of_mem_doubledQuotes isInside)
    · rfl
  · rw [List.cons_append, List.mem_cons, List.mem_append, List.mem_singleton] at member
    rcases member with rfl | isInside | rfl
    · rfl
    · exact Yaml.Presentation.isEverWritten_of_mem_doubleQuoted item.doubleQuoted c isInside
    · rfl

end YamlItem

/-- The layouts of a sequence of nodes. -/
inductive YamlLayout where
  /-- Each item in a line of its own behind a dash, with some spaces in front. -/
  | block (indentation : Nat)
  /-- All items between brackets behind the key, with commas between them. -/
  | flow
  deriving DecidableEq, Repr

namespace YamlLayout

/-- What may stand behind the last item: a newline or nothing. -/
def ending (finalNewline : Bool) : List Char :=
  if finalNewline then ['\n'] else []

/-- The text of a file that gives items in a layout, with a newline at its end or none. -/
def document (layout : YamlLayout) (finalNewline : Bool) (items : List YamlItem) : List Char :=
  let forms := items.map YamlItem.form
  match layout with
  | .block indentation =>
    Yaml.sequenceDocument nodesKey.toList indentation forms (ending finalNewline)
  | .flow => Yaml.flowDocument nodesKey.toList forms (ending finalNewline)

theorem ending_cases (finalNewline : Bool) :
    ending finalNewline = [] ∨ ending finalNewline = ['\n'] := by
  cases finalNewline
  · exact .inl rfl
  · exact .inr rfl

/-- A document consists of characters that may be read. -/
theorem isEverWritten (layout : YamlLayout) (finalNewline : Bool) (items : List YamlItem) :
    ∀ c ∈ layout.document finalNewline items, Yaml.Presentation.isEverWritten c = true := by
  have ofForms : ∀ form ∈ items.map YamlItem.form, ∀ c ∈ form,
      Yaml.Presentation.isEverWritten c = true := by
    intro form isForm
    obtain ⟨item, -, rfl⟩ := List.mem_map.1 isForm
    exact item.isEverWritten
  have ofEnding : ∀ c ∈ ending finalNewline, Yaml.Presentation.isEverWritten c = true := by
    rw [← List.all_eq_true]
    cases finalNewline <;> rfl
  have ofKey : ∀ c ∈ nodesKey.toList, Yaml.Presentation.isEverWritten c = true :=
    List.all_eq_true.1 (by decide)
  cases layout with
  | block indentation =>
      exact Yaml.forall_mem_sequenceDocument ofKey (List.all_eq_true.1 rfl) ofForms ofEnding
  | flow => exact Yaml.forall_mem_flowDocument ofKey (List.all_eq_true.1 rfl) ofForms ofEnding

/-- Every layout is loaded as the mapping from the key to the texts of the items. -/
theorem load_document (layout : YamlLayout) (finalNewline : Bool) {items : List YamlItem}
    (nonempty : items ≠ []) (version : Option Yaml.Version) :
    Yaml.load version (layout.document finalNewline items) =
      (.ok (some (.mapping [(.text nodesKey, Yaml.sequenceOf (items.map YamlItem.text))])),
        version) := by
  have readable : ∀ c ∈ layout.document finalNewline items, Yaml.isReadable c = true :=
    fun c member => Yaml.Presentation.isReadable_of_isEverWritten
      (layout.isEverWritten finalNewline items c member)
  obtain ⟨first, others, rfl⟩ := List.exists_cons_of_ne_nil nonempty
  have arePortable :
      List.Forall₂ Portable (others.map YamlItem.form) (others.map YamlItem.text) := by
    rw [List.forall₂_map_left_iff, List.forall₂_map_right_iff, List.forall₂_same]
    exact fun item _ => item.portable
  cases layout with
  | block indentation =>
      exact Yaml.load_sequenceDocument version Configuration.isPlain_nodesKey (by decide)
        (Yaml.Scan.isBlockForm_portable (ending_cases finalNewline)) first.portable arePortable
        readable
  | flow =>
      refine Yaml.load_flowDocument version Configuration.isPlain_nodesKey (by decide) ?_
        first.portable arePortable readable
      cases finalNewline <;> simp [ending]

end YamlLayout

/-- A reader finds a document as it is in a file that holds it. -/
theorem HoldsText.readFileText_document {store : Store} {path : Path} {layout : YamlLayout}
    {finalNewline : Bool} {items : List YamlItem}
    (holds : HoldsText store path (layout.document finalNewline items)) :
    Roster.readFileText store path = .ok (layout.document finalNewline items) := by
  have noMark : Text.Utf8.withoutMark (layout.document finalNewline items) =
      layout.document finalNewline items := by
    cases layout <;> rfl
  have noReturn : '\r' ∉ layout.document finalNewline items := fun member => by
    cases layout.isEverWritten finalNewline items _ member
  rw [holds.readFileText, noMark, Text.unifyNewlines_of_not_mem noReturn]

/-- A file that gives items in some layout is read as their descriptors in order, whatever
the styles of the items and the layout are, and whatever the reader has read before. -/
theorem descriptors_read_yamlFile {store : Store} {path : Path} {layout : YamlLayout}
    {finalNewline : Bool} {items : List YamlItem} (nonempty : items ≠ [])
    (holds : HoldsText store path (layout.document finalNewline items))
    (version : Option Yaml.Version) :
    ∃ reading, ((Reader.yamlFile path version).read store).1 = .ok reading ∧
      reading.configuration.descriptors = items.map YamlItem.descriptor := by
  have valid : ∀ descriptor ∈ items.map YamlItem.descriptor, IsDescriptor descriptor := by
    intro descriptor member
    obtain ⟨item, -, rfl⟩ := List.mem_map.1 member
    exact item.isDescriptor
  obtain ⟨configuration, -, built, same⟩ := Configuration.exists_ofDescriptors valid
  have loaded := layout.load_document finalNewline nonempty version
  have document : Yaml.Value.mapping
      [(.text nodesKey, Yaml.sequenceOf (items.map YamlItem.text))] = configuration.document := by
    simp [Configuration.document, same, Yaml.sequenceOf, YamlItem.descriptor]
  rw [document] at loaded
  refine ⟨Reading.counted configuration path.toString, ?_, same⟩
  simp only [Reader.read, readYamlFile, holds.readFileText_document, loaded]
  exact Configuration.readDocument_document built path

/-- Items in every style, two of which look like a number and a boolean. -/
def mixedItems : List YamlItem :=
  [⟨.plain, "1.10".toList, by decide, by simp,
      fun _ => ⟨⟨'1', _, rfl, rfl⟩, List.all_eq_true.1 (by decide)⟩⟩,
    ⟨.plain, "true".toList, by decide, by simp,
      fun _ => ⟨⟨'t', _, rfl, rfl⟩, List.all_eq_true.1 (by decide)⟩⟩,
    ⟨.singleQuoted, "it's:".toList, by decide, by simp, nofun⟩,
    ⟨.doubleQuoted, "a\"\\b".toList, by decide, by simp, nofun⟩]

/-- The text of a file with these items in a flow sequence. -/
def mixedText : List Char :=
  YamlLayout.flow.document true mixedItems

theorem descriptors_read_yamlFile_mixed :
    HoldsText (storeHolding "cluster.yaml" mixedText) (.ofString "cluster.yaml") mixedText ∧
      ∃ reading, ((Reader.yamlFile (.ofString "cluster.yaml") none).read
          (storeHolding "cluster.yaml" mixedText)).1 = .ok reading ∧
        reading.configuration.descriptors = ["1.10", "true", "it's:", "a\"\\b"] := by
  have holds : HoldsText (storeHolding "cluster.yaml" mixedText) (.ofString "cluster.yaml")
      (YamlLayout.flow.document true mixedItems) :=
    ⟨by decide +kernel, by decide +kernel⟩
  exact ⟨holds, descriptors_read_yamlFile (by decide) holds none⟩

example : String.ofList ((YamlLayout.block 1).document false mixedItems) =
    "nodes:\n - 1.10\n - true\n - 'it''s:'\n - \"a\\\"\\\\b\"" := by
  decide +kernel

example : String.ofList mixedText =
    "nodes: [1.10, true, 'it''s:', \"a\\\"\\\\b\"]\n" := by
  decide +kernel

end Roster
