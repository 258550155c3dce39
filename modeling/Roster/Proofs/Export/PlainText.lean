import Roster.Proofs.Configuration.Built
import Roster.Proofs.Export.ReadBack
import Roster.Proofs.Text.Unbroken
import Roster.Source.Reader

/-!
# Plain text reads back

An exported plain text has one descriptor in a line, and every line but the first
gives its descriptor back. The first one does so exactly if it does not begin with
a byte order mark, which readers drop in front of a file.
-/

namespace Roster

open Roster.Storage (Path Store)
open Roster.Text (Unbroken)

theorem IsDescriptor.unbroken {descriptor : String} (valid : IsDescriptor descriptor) :
    Unbroken descriptor.toList :=
  valid.noBlank

/-- The words of a line without blanks: the line itself, unless it is a comment or
empty. -/
def wordOfLine : List Char → List String
  | [] => []
  | c :: rest => if c = '#' then [] else [String.ofList (c :: rest)]

/-- The descriptors of a text that begins with a line without blanks. -/
theorem plainDescriptors_line {line : List Char} (unbroken : Unbroken line) (rest : List Char) :
    plainDescriptors (line ++ '\n' :: rest) = wordOfLine line ++ plainDescriptors rest := by
  unfold plainDescriptors
  rw [Text.lines_append unbroken.not_endsLine rfl, List.flatMap_cons]
  congr 1
  cases line with
  | nil => rfl
  | cons c others =>
      rw [Text.cutComment_of_unbroken unbroken, wordOfLine]
      by_cases sign : c = '#'
      · simp [sign, wordsOf]
      · rw [if_neg sign, if_neg sign, wordsOf, Text.words_of_unbroken (by simp) unbroken]
        rfl

/-- The line of a descriptor that is no comment gives the descriptor. -/
theorem wordOfLine_descriptor {descriptor : String} (valid : IsDescriptor descriptor)
    (noComment : Configuration.looksLikeComment descriptor = false) :
    wordOfLine descriptor.toList = [descriptor] := by
  cases same : descriptor.toList with
  | nil => exact absurd same valid.nonempty
  | cons c rest =>
      have notSign : c ≠ '#' := by
        rintro rfl
        simp [Configuration.looksLikeComment, same] at noComment
      rw [wordOfLine, if_neg notSign, ← same, String.ofList_toList]

/-- The lines of descriptors that are no comments give the descriptors. -/
theorem plainDescriptors_flatMap {descriptors : List String}
    (valid : ∀ descriptor ∈ descriptors, IsDescriptor descriptor)
    (noComment : ∀ descriptor ∈ descriptors, Configuration.looksLikeComment descriptor = false) :
    plainDescriptors (descriptors.flatMap fun descriptor => descriptor.toList ++ ['\n']) =
      descriptors := by
  induction descriptors with
  | nil => rfl
  | cons descriptor others inductionHypothesis =>
      have here := List.mem_cons_self (a := descriptor) (l := others)
      rw [List.flatMap_cons, List.append_assoc, List.singleton_append,
        plainDescriptors_line (valid descriptor here).unbroken,
        wordOfLine_descriptor (valid descriptor here) (noComment descriptor here),
        inductionHypothesis (fun other member => valid other (List.mem_cons_of_mem _ member))
          (fun other member => noComment other (List.mem_cons_of_mem _ member))]
      rfl

namespace Configuration

/-- Whether the first descriptor begins with a byte order mark. -/
def beginsWithMark (configuration : Configuration) : Bool :=
  configuration.descriptors.head?.any fun descriptor =>
    descriptor.toList.head? == some Text.Utf8.markCharacter

/-- A plain text that is not refused has a line for each descriptor, and none of
them is a comment. -/
theorem toText_eq_ok {configuration : Configuration} {content : List Char}
    (exported : configuration.toText = .ok content) :
    (∀ descriptor ∈ configuration.descriptors, looksLikeComment descriptor = false) ∧
      content = configuration.descriptors.flatMap fun descriptor => descriptor.toList ++ ['\n'] := by
  unfold toText at exported
  split at exported
  · cases exported
  · rename_i none
    refine ⟨fun descriptor member => ?_, (Except.ok.inj exported).symm⟩
    exact Bool.eq_false_iff.2 (List.find?_eq_none.1 none descriptor member)

/-- Exported lines have no carriage return. -/
theorem return_not_mem_lines {descriptors : List String}
    (valid : ∀ descriptor ∈ descriptors, IsDescriptor descriptor) :
    '\r' ∉ descriptors.flatMap fun descriptor => descriptor.toList ++ ['\n'] := by
  intro member
  obtain ⟨descriptor, isListed, inLine⟩ := List.mem_flatMap.1 member
  rcases List.mem_append.1 inLine with inside | behind
  · have visible := (valid descriptor isListed).noBlank '\r' inside
    cases visible
  · simp at behind

/-- Dropping a byte order mark loses nothing but that mark. -/
theorem mem_of_mem_withoutMark {c : Char} {text : List Char}
    (member : c ∈ Text.Utf8.withoutMark text) : c ∈ text := by
  cases text with
  | nil => exact member
  | cons d rest =>
      simp only [Text.Utf8.withoutMark] at member
      split at member
      · exact List.mem_cons_of_mem _ member
      · exact member

/-- What a reader finds in a plain text that was written for a configuration. -/
theorem read_plainFile_of_write {configuration : Configuration} (built : configuration.Built)
    {store : Store} {target : Path} {record : LogRecord}
    (written : (configuration.write store target (.text "text")).1 = .ok record) :
    (∀ descriptor ∈ configuration.descriptors, looksLikeComment descriptor = false) ∧
      ((Reader.plainFile target).read (configuration.write store target (.text "text")).2).1 =
        countedReading target.toString (ofDescriptors (plainDescriptors (Text.Utf8.withoutMark
          (configuration.descriptors.flatMap fun descriptor => descriptor.toList ++ ['\n'])))) := by
  obtain ⟨content, -, -, exported, -⟩ := write_eq_ok written
  have isText : configuration.toText = .ok content := exported
  obtain ⟨noComment, rfl⟩ := toText_eq_ok isText
  refine ⟨noComment, ?_⟩
  have noReturn := return_not_mem_lines built.isDescriptor
  have found := readFileText_of_write written exported
  rw [Text.unifyNewlines_of_not_mem fun member => noReturn (mem_of_mem_withoutMark member)] at found
  simp [Reader.read, readPlainFile, found, bind, Except.bind]

/-- Behind a byte order mark in the first descriptor the remainder of it is read,
and otherwise all is read. -/
theorem plainDescriptors_withoutMark {first : String} {others : List String} {c : Char}
    {rest : List Char} (start : first.toList = c :: rest)
    (valid : ∀ descriptor ∈ first :: others, IsDescriptor descriptor)
    (noComment : ∀ descriptor ∈ first :: others, looksLikeComment descriptor = false) :
    plainDescriptors (Text.Utf8.withoutMark
        ((first :: others).flatMap fun descriptor => descriptor.toList ++ ['\n'])) =
      if c = Text.Utf8.markCharacter then wordOfLine rest ++ others else first :: others := by
  split
  · rename_i marked
    have unbroken := (valid first List.mem_cons_self).unbroken
    rw [start] at unbroken
    rw [List.flatMap_cons, start, List.append_assoc, List.singleton_append, List.cons_append,
      Text.Utf8.withoutMark, if_pos marked, plainDescriptors_line unbroken.tail,
      plainDescriptors_flatMap (fun other member => valid other (List.mem_cons_of_mem _ member))
        (fun other member => noComment other (List.mem_cons_of_mem _ member))]
  · rename_i unmarked
    have kept : Text.Utf8.withoutMark
        ((first :: others).flatMap fun descriptor => descriptor.toList ++ ['\n']) =
        (first :: others).flatMap fun descriptor => descriptor.toList ++ ['\n'] := by
      rw [List.flatMap_cons, start, List.append_assoc, List.cons_append, Text.Utf8.withoutMark,
        if_neg unmarked]
    rw [kept, plainDescriptors_flatMap valid noComment]

/-- A word of a line is not longer than the line. -/
theorem wordOfLine_ne {c : Char} {rest : List Char} {word : String}
    (start : word.toList = c :: rest) : wordOfLine rest ≠ [word] := by
  intro same
  cases rest with
  | nil => cases same
  | cons d others =>
      simp only [wordOfLine] at same
      split at same
      · cases same
      · obtain ⟨isWord, -⟩ := List.cons.inj same
        rw [← isWord, String.toList_ofList] at start
        have lengths := congrArg List.length start
        simp at lengths

/-- A configuration reads back from its plain text exactly if its first descriptor
does not begin with a byte order mark. -/
theorem plainText_reads_back_iff {configuration : Configuration} (built : configuration.Built)
    {store : Store} {target : Path} {record : LogRecord}
    (written : (configuration.write store target (.text "text")).1 = .ok record) :
    (∃ reading, ((Reader.plainFile target).read
        (configuration.write store target (.text "text")).2).1 = .ok reading ∧
      reading.configuration = configuration) ↔ configuration.beginsWithMark = false := by
  obtain ⟨noComment, found⟩ := read_plainFile_of_write built written
  have valid := built.isDescriptor
  have again := built.ofDescriptors_descriptors
  rw [found]
  cases same : configuration.descriptors with
  | nil =>
      rw [same] at again
      simp [beginsWithMark, same, Text.Utf8.withoutMark, plainDescriptors, Text.lines, again,
        countedReading, Reading.counted]
  | cons first others =>
      rw [same] at valid noComment again
      obtain ⟨c, rest, start⟩ := List.exists_cons_of_ne_nil (valid first List.mem_cons_self).nonempty
      have marked : configuration.beginsWithMark = (c == Text.Utf8.markCharacter) := by
        simp [beginsWithMark, same, start]
      rw [plainDescriptors_withoutMark start valid noComment, marked]
      by_cases isMark : c = Text.Utf8.markCharacter
      · -- What is read has either a shorter first descriptor or one descriptor less.
        have differs : ofDescriptors (wordOfLine rest ++ others) ≠ .ok configuration := by
          intro result
          have listed := descriptors_ofDescriptors result
          rw [same, ← List.singleton_append] at listed
          exact wordOfLine_ne start (List.append_cancel_right listed).symm
        rw [if_pos isMark]
        simp only [isMark, beq_self_eq_true, Bool.true_eq_false, iff_false]
        rintro ⟨reading, outcome, rfl⟩
        unfold countedReading at outcome
        split at outcome
        · cases outcome
        · rename_i result
          obtain rfl := Except.ok.inj outcome
          exact differs result
      · rw [if_neg isMark, again]
        simp [isMark, countedReading, Reading.counted]

/-- Number signs and byte order marks inside a configuration. -/
def markedInside : Configuration :=
  { entries := [{ index := 0, descriptor := "node#1" }, { index := 1, descriptor := "\ufeff#a" }] }

theorem built_markedInside : markedInside.Built :=
  .add (.add .empty "node#1" rfl) "\ufeff#a" rfl

/-- A byte order mark that is not at the very beginning is kept. -/
theorem plainText_reads_back_marked_inside :
    markedInside.Built ∧
      (markedInside.write .empty (.ofString "out") (.text "text")).1 =
        .ok (writtenRecord markedInside.size (.ofString "out") (.text "text")) ∧
      ∃ reading, ((Reader.plainFile (.ofString "out")).read
          (markedInside.write .empty (.ofString "out") (.text "text")).2).1 = .ok reading ∧
        reading.configuration = markedInside := by
  have written : (markedInside.write .empty (.ofString "out") (.text "text")).1 =
      .ok (writtenRecord markedInside.size (.ofString "out") (.text "text")) := by decide +kernel
  exact ⟨built_markedInside, written,
    (plainText_reads_back_iff built_markedInside written).2 (by decide +kernel)⟩

/-- A configuration whose plain text begins with a byte order mark. -/
def markedFirst : Configuration :=
  { entries := [{ index := 0, descriptor := "\ufeffa" }] }

/-- A first descriptor that begins with a byte order mark is exported, and is read
back without the mark. -/
theorem plainText_loses_leading_mark :
    markedFirst.Built ∧
      (markedFirst.write .empty (.ofString "out") (.text "text")).1 =
        .ok (writtenRecord markedFirst.size (.ofString "out") (.text "text")) ∧
      ¬∃ reading, ((Reader.plainFile (.ofString "out")).read
          (markedFirst.write .empty (.ofString "out") (.text "text")).2).1 = .ok reading ∧
        reading.configuration = markedFirst := by
  refine ⟨.add .empty "\ufeffa" rfl, by decide +kernel, ?_⟩
  have shortened : (((Reader.plainFile (.ofString "out")).read
      (markedFirst.write .empty (.ofString "out") (.text "text")).2).1.toOption.map
        fun reading => reading.configuration.descriptors) = some ["a"] := by decide +kernel
  rintro ⟨reading, outcome, same⟩
  rw [outcome] at shortened
  have listed : reading.configuration.descriptors = ["a"] := Option.some.inj shortened
  rw [same] at listed
  exact absurd listed (by decide +kernel)

end Configuration

end Roster
