import Roster.Proofs.Source.ArgumentList

/-!
# Descriptors in one text

A list of descriptors can be written in one line with spaces in between, or with one descriptor
in each line. Both are read back as the list, the latter from a file unless a descriptor begins
with a number sign, or the first one with a byte order mark.
-/

namespace Roster

open Roster.Storage (Path Store)

/-- In each line of a text there is one descriptor. There may be blanks around it, and newlines
may be written in any way. -/
def IsListing (descriptors : List String) (text : List Char) : Prop :=
  (Text.linePieces (Text.unifyNewlines text)).map Text.visiblePieces =
    descriptors.map fun descriptor => [descriptor.toList]

instance (descriptors : List String) (text : List Char) :
    Decidable (IsListing descriptors text) :=
  inferInstanceAs (Decidable (_ = _))

/-- Descriptors that are the words of a text are what is read from it. -/
theorem wordsOf_of_words {text : List Char} {descriptors : List String}
    (areWords : Text.words text = descriptors.map String.toList) : wordsOf text = descriptors := by
  have whole : String.ofList ∘ String.toList = id := funext fun _ => String.ofList_toList
  rw [wordsOf, areWords, List.map_map, whole, List.map_id]

/-- The words of a listing are the descriptors. -/
theorem IsListing.words_eq {descriptors : List String} {text : List Char}
    (listing : IsListing descriptors text) : Text.words text = descriptors.map String.toList := by
  rw [← Text.words_unifyNewlines, ← Text.flatMap_words_lines, Text.lines_eq_linePieces,
    funext Text.words_eq_visiblePieces, List.flatMap_def, listing]
  exact List.flatMap_def.symm.trans (List.flatMap_pure_eq_map String.toList descriptors)

/-- A listing begins with a byte order mark only if its first descriptor does. -/
theorem IsListing.noMark {descriptors : List String} {text : List Char}
    (listing : IsListing descriptors text)
    (noMark : ∀ first ∈ descriptors.head?, first.toList.head? ≠ some Text.Utf8.markCharacter) :
    text.head? ≠ some Text.Utf8.markCharacter := by
  cases text with
  | nil => exact nofun
  | cons c rest =>
      intro marked
      obtain rfl : c = Text.Utf8.markCharacter := Option.some.inj marked
      have visible : Text.isBlank Text.Utf8.markCharacter = false := by decide
      obtain ⟨word, others, areWords⟩ := Text.exists_words_cons visible rest
      rw [listing.words_eq] at areWords
      cases descriptors with
      | nil => cases areWords
      | cons first more =>
          obtain ⟨begins, -⟩ := List.cons.inj areWords
          exact noMark first rfl (by rw [begins]; rfl)

/-- A file with one descriptor in each line is read as the list of the descriptors. -/
theorem IsListing.readPlainFile {descriptors : List String} {text : List Char}
    (listing : IsListing descriptors text)
    (noMark : ∀ first ∈ descriptors.head?, first.toList.head? ≠ some Text.Utf8.markCharacter)
    (noComment : ∀ descriptor ∈ descriptors, Configuration.looksLikeComment descriptor = false)
    {store : Store} {path : Path} (holds : HoldsText store path text) :
    readPlainFile store path =
      countedReading path.toString (Configuration.ofDescriptors descriptors) := by
  have unmarked := withoutMark_eq_self (listing.noMark noMark)
  have uncommented : ∀ word ∈ Text.words text, Text.beginsWithSign word = false := by
    rw [listing.words_eq]
    intro word member
    obtain ⟨descriptor, isListed, rfl⟩ := List.mem_map.1 member
    exact noComment descriptor isListed
  have found : plainDescriptors (Text.unifyNewlines text) = descriptors :=
    ((plainDescriptors_eq_wordsOf_iff text).2 uncommented).trans
      (wordsOf_of_words listing.words_eq)
  rw [Roster.readPlainFile, holds.readFileText, unmarked]
  exact congrArg (fun list => countedReading path.toString (Configuration.ofDescriptors list)) found

/-- The words of descriptors with spaces in between are the descriptors. -/
theorem words_intercalate {descriptors : List String}
    (valid : ∀ descriptor ∈ descriptors, IsDescriptor descriptor) :
    Text.words (" ".intercalate descriptors).toList = descriptors.map String.toList := by
  rw [String.toList_intercalate]
  induction descriptors with
  | nil => rfl
  | cons first others inductionHypothesis =>
      obtain ⟨validFirst, validOthers⟩ := List.forall_mem_cons.1 valid
      have isWord := Text.words_of_unbroken validFirst.nonempty validFirst.noBlank
      cases others with
      | nil => simpa using isWord
      | cons second more =>
          have joined : " ".toList.intercalate ((first :: second :: more).map String.toList) =
              first.toList ++
                ' ' :: " ".toList.intercalate ((second :: more).map String.toList) := by
            simp [List.intercalate_cons_cons]
          rw [joined, Text.words_append_blank rfl, isWord, inductionHypothesis validOthers]
          rfl

/-- Descriptors with spaces in between are read as the list of the descriptors. -/
theorem readText_intercalate {descriptors : List String}
    (valid : ∀ descriptor ∈ descriptors, IsDescriptor descriptor) :
    readText (" ".intercalate descriptors) =
      countedReading "string source" (Configuration.ofDescriptors descriptors) := by
  rw [readText, wordsOf_of_words (words_intercalate valid)]

end Roster
