import Mathlib.Data.List.TakeWhile
import Roster.Proofs.Configuration.Built
import Roster.Proofs.Source.FileText
import Roster.Proofs.Text.Comment
import Roster.Source.Reader

/-!
# Reading plain text files

Which descriptors a plain text file holds, told by its words: the words of each line
in front of the first one that begins with a number sign. From this it follows
exactly when a file reads like the text in it: if no word of the text begins with a
number sign.
-/

namespace Roster

open Roster.Storage (Path Store)

/-- The words of the lines of a text, in each line up to the first word that begins
with a number sign. -/
def uncommentedWords (text : List Char) : List (List Char) :=
  (Text.linePieces text).flatMap fun line =>
    (Text.visiblePieces line).takeWhile fun piece => !Text.beginsWithSign piece

/-- The descriptors of a plain text are its uncommented words. -/
theorem plainDescriptors_eq (text : List Char) :
    plainDescriptors text = (uncommentedWords text).map String.ofList := by
  simp only [plainDescriptors, wordsOf, uncommentedWords, Text.words_cutComment,
    ← Text.words_eq_visiblePieces, ← Text.lines_eq_linePieces, List.map_flatMap]

/-- Words keep the rules for descriptors. -/
theorem isDescriptor_of_mem_words {text word : List Char} (member : word ∈ Text.words text) :
    IsDescriptor (String.ofList word) := by
  obtain ⟨nonempty, unbroken⟩ := Text.isWord_of_mem_words member
  constructor
  · rwa [String.toList_ofList]
  · rwa [String.toList_ofList]

theorem isDescriptor_of_mem_plainDescriptors {text : List Char} :
    ∀ descriptor ∈ plainDescriptors text, IsDescriptor descriptor := by
  intro descriptor member
  obtain ⟨line, -, inLine⟩ := List.mem_flatMap.1 member
  obtain ⟨word, isWord, rfl⟩ := List.mem_map.1 inLine
  exact isDescriptor_of_mem_words isWord

theorem isDescriptor_of_mem_wordsOf {text : List Char} :
    ∀ descriptor ∈ wordsOf text, IsDescriptor descriptor := by
  intro descriptor member
  obtain ⟨word, isWord, rfl⟩ := List.mem_map.1 member
  exact isDescriptor_of_mem_words isWord

/-- Descriptors that keep the rules are read as a built configuration. -/
theorem exists_countedReading {descriptors : List String}
    (valid : ∀ descriptor ∈ descriptors, IsDescriptor descriptor) (origin : String) :
    ∃ reading, countedReading origin (Configuration.ofDescriptors descriptors) = .ok reading ∧
      reading.configuration.Built ∧ reading.configuration.descriptors = descriptors := by
  obtain ⟨configuration, added, built, same⟩ := Configuration.exists_ofDescriptors valid
  refine ⟨Reading.counted configuration origin, ?_, built, same⟩
  simp only [countedReading, added]

/-- A file that holds a text is read, and gives the descriptors of the text without a
byte order mark in front and with newlines unified. -/
theorem exists_read_plainFile {store : Store} {path : Path} {text : List Char}
    (holds : HoldsText store path text) :
    ∃ reading, ((Reader.plainFile path).read store).1 = .ok reading ∧
      reading.configuration.Built ∧ reading.configuration.descriptors =
        plainDescriptors (Text.unifyNewlines (Text.Utf8.withoutMark text)) := by
  obtain ⟨reading, read, result⟩ :=
    exists_countedReading isDescriptor_of_mem_plainDescriptors path.toString
  refine ⟨reading, ?_, result⟩
  rw [Reader.read, readPlainFile, holds.readFileText]
  exact read

/-- A text is read, and gives its words. -/
theorem exists_read_text (store : Store) (text : String) :
    ∃ reading, ((Reader.text (.text text)).read store).1 = .ok reading ∧
      reading.configuration.Built ∧
      reading.configuration.descriptors = wordsOf text.toList :=
  exists_countedReading isDescriptor_of_mem_wordsOf "string source"

/-- A file that holds a text gives its uncommented words, each at its position: a byte
order mark in front does not count, and all newlines are alike. -/
theorem entries_read_plainFile {store : Store} {path : Path} {text : List Char}
    (holds : HoldsText store path text) :
    ∃ reading, ((Reader.plainFile path).read store).1 = .ok reading ∧
      reading.configuration.entries =
        ((uncommentedWords (Text.unifyNewlines (Text.Utf8.withoutMark text))).map
          String.ofList).mapIdx Entry.mk := by
  obtain ⟨reading, read, built, same⟩ := exists_read_plainFile holds
  refine ⟨reading, read, ?_⟩
  rw [built.entries_eq, same, plainDescriptors_eq]

/-- A file with a byte order mark, both kinds of comment, a number sign inside a word
and three kinds of line end. -/
def commentedText : List Char := "\ufeff# rack\r\na b\t#c d\x0be#1\u2028 f##\rg".toList

theorem entries_read_plainFile_commented :
    HoldsText (storeHolding "cluster.conf" commentedText) (.ofString "cluster.conf") commentedText ∧
      ∃ reading, ((Reader.plainFile (.ofString "cluster.conf")).read
          (storeHolding "cluster.conf" commentedText)).1 = .ok reading ∧
        reading.configuration.entries = [⟨0, "a"⟩, ⟨1, "b"⟩, ⟨2, "e#1"⟩, ⟨3, "f##"⟩, ⟨4, "g"⟩] := by
  have holds : HoldsText (storeHolding "cluster.conf" commentedText) (.ofString "cluster.conf")
      commentedText := ⟨by decide +kernel, by decide +kernel⟩
  obtain ⟨reading, read, entries⟩ := entries_read_plainFile holds
  refine ⟨holds, reading, read, entries.trans ?_⟩
  decide +kernel

/-- Taking the front of each part takes everything exactly if nothing stops it. -/
theorem flatMap_takeWhile_eq_iff {α β : Type} {parts : α → List β} {passes : β → Bool}
    {whole : List α} :
    (whole.flatMap fun a => (parts a).takeWhile passes) = whole.flatMap parts ↔
      ∀ b ∈ whole.flatMap parts, passes b = true := by
  constructor
  · intro same b member
    rw [← same] at member
    obtain ⟨a, -, taken⟩ := List.mem_flatMap.1 member
    exact List.mem_takeWhile_imp taken
  · intro all
    refine List.flatMap_congr fun a member => List.takeWhile_eq_self_iff.2 fun b inside => ?_
    exact all b (List.mem_flatMap.2 ⟨a, member, inside⟩)

/-- The descriptors of a plain text are all of its words exactly if none of them begins
with a number sign. -/
theorem plainDescriptors_eq_wordsOf_iff (text : List Char) :
    plainDescriptors (Text.unifyNewlines text) = wordsOf text ↔
      ∀ word ∈ Text.words text, Text.beginsWithSign word = false := by
  have inLines : Text.words text =
      (Text.linePieces (Text.unifyNewlines text)).flatMap Text.visiblePieces := by
    rw [← funext Text.words_eq_visiblePieces, ← Text.lines_eq_linePieces,
      Text.flatMap_words_lines, Text.words_unifyNewlines]
  have injective : Function.Injective (List.map String.ofList) :=
    List.map_injective_iff.2 fun _ _ => String.ofList_injective
  rw [plainDescriptors_eq, uncommentedWords, wordsOf, injective.eq_iff, inLines,
    flatMap_takeWhile_eq_iff]
  simp

/-- A file that holds a text reads like the text itself exactly if none of the words
of the text begins with a number sign. -/
theorem plainFile_reads_like_text_iff {store : Store} {path : Path} {text : String}
    (noMark : text.toList.head? ≠ some Text.Utf8.markCharacter)
    (holds : HoldsText store path text.toList) :
    ∃ ofFile ofText, ((Reader.plainFile path).read store).1 = .ok ofFile ∧
      ((Reader.text (.text text)).read store).1 = .ok ofText ∧
      (ofFile.configuration = ofText.configuration ↔
        ∀ piece ∈ Text.visiblePieces text.toList, Text.beginsWithSign piece = false) := by
  have whole : Text.Utf8.withoutMark text.toList = text.toList := by
    cases same : text.toList with
    | nil => rfl
    | cons c rest =>
        rw [same] at noMark
        rw [Text.Utf8.withoutMark, if_neg (by simpa using noMark)]
  obtain ⟨ofFile, readFile, builtFile, sameFile⟩ := exists_read_plainFile holds
  obtain ⟨ofText, readText, builtText, sameText⟩ := exists_read_text store text
  refine ⟨ofFile, ofText, readFile, readText, ?_⟩
  rw [whole] at sameFile
  have byDescriptors : ofFile.configuration = ofText.configuration ↔
      ofFile.configuration.descriptors = ofText.configuration.descriptors :=
    ⟨congrArg Configuration.descriptors, builtFile.eq_of_descriptors builtText⟩
  rw [byDescriptors, sameFile, sameText, plainDescriptors_eq_wordsOf_iff,
    Text.words_eq_visiblePieces]

/-- A text with several kinds of white space and a number sign inside a word. -/
def separatedText : String := "a\x0bb#1\r\nc\u3000d\x85"

theorem plainFile_reads_like_text_separated :
    separatedText.toList.head? ≠ some Text.Utf8.markCharacter ∧
      HoldsText (storeHolding "cluster.conf" separatedText.toList) (.ofString "cluster.conf")
        separatedText.toList ∧
      ∃ ofFile ofText, ((Reader.plainFile (.ofString "cluster.conf")).read
          (storeHolding "cluster.conf" separatedText.toList)).1 = .ok ofFile ∧
        ((Reader.text (.text separatedText)).read
          (storeHolding "cluster.conf" separatedText.toList)).1 = .ok ofText ∧
        ofFile.configuration = ofText.configuration := by
  have noMark : separatedText.toList.head? ≠ some Text.Utf8.markCharacter := by decide +kernel
  have holds : HoldsText (storeHolding "cluster.conf" separatedText.toList)
      (.ofString "cluster.conf") separatedText.toList := ⟨by decide +kernel, by decide +kernel⟩
  obtain ⟨ofFile, ofText, readFile, readText, iff⟩ := plainFile_reads_like_text_iff noMark holds
  refine ⟨noMark, holds, ofFile, ofText, readFile, readText, iff.2 ?_⟩
  decide +kernel

end Roster
