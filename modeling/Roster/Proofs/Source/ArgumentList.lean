import Roster.Proofs.Configuration.Refusal
import Roster.Proofs.Source.PlainFile
import Roster.Proofs.Text.Spacing

/-!
# Texts and lists of arguments

A text and the list of its words are read as the same configuration. The other way round, a
list of arguments that can be read is the list of the words of any text in which its items
stand in order with blanks between them, so all these texts are read alike. A list of arguments
that cannot be read fails for the first item that is no descriptor.
-/

namespace Roster

open Roster.Storage (Store)

/-- Arguments that are texts are read as descriptors. -/
theorem readArguments_texts (descriptors : List String) :
    readArguments (descriptors.map Datum.text) =
      countedReading "argument list" (Configuration.ofDescriptors descriptors) := by
  rw [readArguments, Configuration.addAllData_texts]
  rfl

/-- A text is read as the list of its words is. -/
theorem exists_read_words (text : String) :
    ∃ configuration,
      readText text = .ok (Reading.counted configuration "string source") ∧
      readArguments ((wordsOf text.toList).map Datum.text) =
        .ok (Reading.counted configuration "argument list") := by
  obtain ⟨configuration, added, -, -⟩ :=
    Configuration.exists_ofDescriptors (@isDescriptor_of_mem_wordsOf text.toList)
  refine ⟨configuration, ?_, ?_⟩
  · simp only [readText, countedReading, added]
  · simp only [readArguments_texts, countedReading, added]

/-- A configuration is counted exactly if there is one. -/
theorem exists_countedReading_iff {origin : String}
    {result : Except InvalidDescriptor Configuration} :
    (∃ reading, countedReading origin result = .ok reading) ↔
      ∃ configuration, result = .ok configuration := by
  cases result with
  | error cause => exact iff_of_false nofun nofun
  | ok configuration => exact iff_of_true ⟨_, rfl⟩ ⟨_, rfl⟩

theorem countedReading_eq_error_iff {origin : String}
    {result : Except InvalidDescriptor Configuration} {error : ReadError} :
    countedReading origin result = .error error ↔
      ∃ cause, result = .error cause ∧ error = .descriptor cause := by
  cases result with
  | error cause => simp [countedReading, eq_comm]
  | ok configuration => simp [countedReading]

/-- The words of a text that is put together with blanks. -/
theorem wordsOf_spacing {spacing : Text.Spacing} (proper : spacing.IsProper) :
    wordsOf (String.ofList spacing.text).toList = spacing.words.map String.ofList := by
  rw [wordsOf, String.toList_ofList, proper.words_text]

/-- Every text is read, and its words as arguments give the same configuration. Arguments are
read exactly if each of them is a descriptor; then every text that is put together from them
with blanks gives the same configuration. Otherwise they fail for the first one that is
refused. -/
theorem texts_and_arguments_read_alike (store : Store) (text : String)
    (arguments : List Datum) :
    (∃ ofText ofWords, ((Reader.text (.text text)).read store).1 = .ok ofText ∧
      ((Reader.arguments ((wordsOf text.toList).map Datum.text)).read store).1 = .ok ofWords ∧
      ofText.configuration = ofWords.configuration) ∧
    ((∃ reading, ((Reader.arguments arguments).read store).1 = .ok reading) ↔
      ∀ datum ∈ arguments, ∃ descriptor, datum = .text descriptor ∧ IsDescriptor descriptor) ∧
    (∀ reading, ((Reader.arguments arguments).read store).1 = .ok reading →
      ∀ spacing : Text.Spacing, spacing.IsProper →
        arguments = (spacing.words.map String.ofList).map Datum.text →
        ∃ ofText,
          ((Reader.text (.text (String.ofList spacing.text))).read store).1 = .ok ofText ∧
          ofText.configuration = reading.configuration) ∧
    (∀ error, ((Reader.arguments arguments).read store).1 = .error error →
      ∃ front datum back cause, arguments = front ++ datum :: back ∧
        (∀ other ∈ front, ∃ descriptor, other = .text descriptor ∧ IsDescriptor descriptor) ∧
        datum.Refused cause ∧ error = .descriptor cause) := by
  simp only [Reader.read]
  refine ⟨?_, ?_, ?_, ?_⟩
  · obtain ⟨configuration, ofText, ofWords⟩ := exists_read_words text
    exact ⟨_, _, ofText, ofWords, rfl⟩
  · rw [readArguments, exists_countedReading_iff, Configuration.exists_addAllData_iff]
    simp only [Datum.descriptor?_eq_some_iff]
  · intro reading read spacing proper areWords
    obtain ⟨configuration, ofText, ofWords⟩ := exists_read_words (String.ofList spacing.text)
    rw [wordsOf_spacing proper, ← areWords, read] at ofWords
    exact ⟨_, ofText, by rw [Except.ok.inj ofWords]; rfl⟩
  · intro error failed
    obtain ⟨cause, refused, rfl⟩ := countedReading_eq_error_iff.1 failed
    obtain ⟨front, datum, back, split, accepted, isRefused⟩ :=
      Configuration.addAllData_eq_error_iff.1 refused
    simp only [Datum.descriptor?_eq_some_iff] at accepted
    exact ⟨front, datum, back, cause, split, accepted, isRefused, rfl⟩

end Roster
