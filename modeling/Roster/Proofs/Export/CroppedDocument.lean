import Roster.Proofs.Export.YamlDocument
import Roster.Proofs.Yaml.CroppedEntry

/-!
# YAML documents whose lines are cut

A document of which a line is cut does not read back. The first entry that is cut is read
as something else, or there is an error, and what is read behind it does not matter.
-/

namespace Roster

open Roster.Storage (Path Store)
open Roster.Text (Cropped)
open Roster.Yaml (Value)

/-- A document that departs from some descriptors is not read as them. -/
theorem descriptors_ne_of_holdsDeparting {path : Path} {value : Value} {front behind : List String}
    {descriptor : String} (departs : value.HoldsDeparting nodesKey front descriptor)
    {reading : Reading} (read : readDocument path (some value) = .ok reading) :
    reading.configuration.descriptors ≠ front ++ descriptor :: behind := by
  obtain ⟨other, more, entries, rfl, differs⟩ := departs
  rw [readDocument_nodes path (by rw [List.lookup_cons, beq_self_eq_true])] at read
  obtain ⟨nodes, added, fromNodes⟩ := bind_eq_ok.1 read
  obtain ⟨descriptors, items, found⟩ := exists_of_foldlM_addNode added
  intro whole
  have same := wide_of_nodesReading (gives_built_nodes path _ nodes added) fromNodes
  have listed : descriptors = (front ++ descriptor :: behind).map .plain := by
    rw [← whole, ← Configuration.descriptors_wide, same, found]
    rfl
  rw [listed, List.map_append, List.map_append, List.map_map] at items
  exact differs (List.cons.inj (List.append_cancel_left items)).1

namespace Configuration

/-- Behind the line of an item stands the line of a further one, or nothing. -/
theorem isEntryLine_items (descriptors : List String) :
    Yaml.IsEntryLine (descriptors.flatMap yamlItem) := by
  cases descriptors with
  | nil => exact .inl rfl
  | cons descriptor others => exact .inr ⟨_, rfl⟩

/-- A scalar begins with no white space if the beginning of its line is not cut. -/
theorem isSettled_cropped {descriptor : String} (valid : IsDescriptor descriptor)
    {rest shown : List Char}
    (cropped : Cropped 4 (Yaml.Presentation.scalar itemColumn descriptor.toList ++ '\n' :: rest)
      shown) :
    Yaml.IsSettled shown := by
  have isWritten := Yaml.Presentation.written_scalar itemColumn valid.nonempty valid.noBlank
  exact (isWritten.isSettled ('\n' :: rest)).of_head?_eq (cropped.head?_eq (by decide))

/-- Items of which a line is cut are whole up to an item that the stream opens unlike. -/
theorem cropped_items_cases {descriptors : List String}
    (valid : ∀ descriptor ∈ descriptors, IsDescriptor descriptor) {shown : List Char}
    (cropped : Cropped 0 (descriptors.flatMap yamlItem) shown) :
    shown = descriptors.flatMap yamlItem ∨
      ∃ front descriptor behind tail, descriptors = front ++ descriptor :: behind ∧
        shown = front.flatMap yamlItem ++ ("  - ".toList ++ tail) ∧
        Yaml.OpensUnlike descriptor.toList tail ∧ Yaml.IsSettled tail := by
  induction descriptors generalizing shown with
  | nil => exact .inl cropped.eq_nil
  | cons descriptor others inductionHypothesis =>
      obtain ⟨validHead, validOthers⟩ := List.forall_mem_cons.1 valid
      rw [List.flatMap_cons, yamlItem, List.append_assoc, List.append_assoc,
        List.singleton_append] at cropped
      obtain ⟨tail, rfl, item⟩ :=
        cropped.exists_front (show '\n' ∉ "  - ".toList by decide) (by decide)
      rcases Yaml.cropped_entry_cases itemColumn validHead.nonempty validHead.noBlank
        (isEntryLine_items others) item with ⟨behind, rfl, rest⟩ | opens
      · rcases inductionHypothesis validOthers rest with
          rfl | ⟨front, other, behind, tail, rfl, rfl, opens, settled⟩
        · left
          simp [yamlItem]
        · refine .inr ⟨descriptor :: front, other, behind, tail, rfl, ?_, opens, settled⟩
          simp [yamlItem]
      · exact .inr ⟨[], descriptor, others, tail, rfl, rfl, opens,
          isSettled_cropped validHead item⟩

/-- The items up to the dash of a further one, as the stream reads them behind the key. -/
theorem newline_cons_items (front : List String) (tail : List Char) :
    '\n' :: (front.flatMap yamlItem ++ ("  - ".toList ++ tail)) =
      Yaml.Scan.furtherEntry 2
        (front.map fun descriptor => Yaml.Presentation.scalar itemColumn descriptor.toList)
        tail := by
  induction front with
  | nil => rfl
  | cons descriptor others inductionHypothesis =>
      rw [List.map_cons, Yaml.Scan.furtherEntry_cons, ← inductionHypothesis]
      simp [yamlItem]

/-- A document of which a line is cut is not loaded as one that reads as the configuration. -/
theorem readsBack_cropped {configuration : Configuration} (built : configuration.Built)
    (nonempty : configuration.entries ≠ []) {shown : List Char}
    (cropped : Cropped 0 configuration.toYaml shown) {version : Option Yaml.Version}
    {document : Option Value} (loaded : (Yaml.load version shown).1 = .ok document) {path : Path}
    {reading : Reading} (read : readDocument path document = .ok reading)
    (same : reading.configuration = configuration) : shown = configuration.toYaml := by
  have isEmpty : configuration.entries.isEmpty = false := by simpa using nonempty
  have colonLine : ":\n".toList = [':'] ++ ['\n'] := rfl
  rw [toYaml, isEmpty, if_neg Bool.false_ne_true, colonLine, List.append_assoc,
    List.append_assoc] at cropped ⊢
  obtain ⟨line, rfl, key⟩ :=
    cropped.exists_front (show '\n' ∉ nodesKey.toList by decide) (by decide)
  obtain ⟨ends, rfl, colon⟩ := key.exists_front (show '\n' ∉ [':'] by decide) (by decide)
  obtain ⟨items, rfl, others⟩ := colon.exists_newline
  rcases cropped_items_cases built.isDescriptor others with
    rfl | ⟨front, descriptor, behind, tail, whole, rfl, opens, settled⟩
  · rfl
  · have areWritten : List.Forall₂ Yaml.Written
        (front.map fun descriptor => Yaml.Presentation.scalar itemColumn descriptor.toList)
        (front.map String.toList) := by
      rw [List.forall₂_map_left_iff, List.forall₂_map_right_iff, List.forall₂_same]
      intro other member
      have valid := built.isDescriptor other (by rw [whole]; exact List.mem_append_left _ member)
      exact Yaml.Presentation.written_scalar itemColumn valid.nonempty valid.noBlank
    obtain ⟨kind, isUnlike, opensDocument⟩ := Yaml.opens_tokenize (version.getD .v12)
      isPlain_nodesKey (by decide) (by decide) areWritten settled opens
    rw [← newline_cons_items] at opensDocument
    obtain ⟨value, rfl, departs⟩ := Yaml.holdsDeparting_of_load isUnlike opensDocument loaded
    have texts : (front.map String.toList).map String.ofList = front := by simp
    simp only [texts, String.ofList_toList] at departs
    have differs : reading.configuration.descriptors ≠ front ++ descriptor :: behind :=
      descriptors_ne_of_holdsDeparting departs read
    rw [same, whole] at differs
    exact absurd rfl differs

end Configuration

end Roster
