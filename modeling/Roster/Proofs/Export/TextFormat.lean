import Roster.Proofs.Export.PlainText
import Roster.Proofs.Source.PlainFile

/-!
# What plain text can hold

A configuration is read from some plain text file exactly if its export as plain text is not
refused and it holds no half. A word that begins with a number sign is read from no file, for
it is a comment wherever it stands, and a half is read from none since it has no bytes. Any
other descriptor is read from a line of its own, even the first one in front of which a byte
order mark is dropped: the file then begins with one mark more.

So the refusals are not enough: plain text with a half in it is not refused, and no file can
hold it.
-/

namespace Roster

open Roster.Storage (Path Store Location)

/-- A word looks like a comment as a descriptor if it begins with a number sign. -/
theorem looksLikeComment_ofList (word : List Char) :
    Configuration.looksLikeComment (String.ofList word) = Text.beginsWithSign word := by
  rw [Configuration.looksLikeComment, String.toList_ofList]
  rfl

/-- No descriptor of a plain text looks like a comment. -/
theorem not_looksLikeComment_of_mem_plainDescriptors {text : List Char} :
    ∀ descriptor ∈ plainDescriptors text, Configuration.looksLikeComment descriptor = false := by
  intro descriptor member
  rw [plainDescriptors_eq] at member
  obtain ⟨word, isWord, rfl⟩ := List.mem_map.1 member
  obtain ⟨line, -, taken⟩ := List.mem_flatMap.1 isWord
  rw [looksLikeComment_ofList]
  simpa using List.mem_takeWhile_imp taken

/-- What is read from a plain text file are the descriptors of the text in it. -/
theorem exists_text_of_read_plainFile {store : Store} {path : Path} {reading : Reading}
    (read : ((Reader.plainFile path).read store).1 = .ok reading) :
    ∃ text, reading.configuration.descriptors = plainDescriptors text := by
  obtain ⟨text, -, counted⟩ := bind_eq_ok.1 (show readPlainFile store path = .ok reading from read)
  obtain ⟨descriptors, found, -, same⟩ :=
    exists_countedReading (@isDescriptor_of_mem_plainDescriptors text) path.toString
  rw [counted] at found
  obtain rfl := Except.ok.inj found
  exact ⟨text, same⟩

/-- The text of a file that is put at such a place is found there. -/
theorem IsFilePlace.holdsText {store : Store} {path : Path} {location : Location}
    (isPlace : IsFilePlace store path location) (text : List Char) :
    HoldsText (store.set location (.file (Text.Utf8.encode text))) path text where
  noNul := isPlace.noNul
  isFile := Store.read_of_file
    (Store.locate_of_keepsDirectories (Store.keepsDirectories_set _ isPlace.free) isPlace.leads)
    (Store.get?_set_same store (Store.ne_nil_of_noDirectory isPlace.free) _)

/-- The refusal of a descriptor that looks like a comment names it. -/
theorem message_looksLikeComment (descriptor : Text.Wide) :
    (ExportError.looksLikeComment descriptor).message = "Descriptor '" ++ descriptor.shown ++
      "' starts with '#' and cannot be exported as text, use the yaml format" := by
  have parts : "' starts with '#' and cannot be exported as text, use the yaml format" =
      "' starts with '#' and cannot be exported as text, " ++ "use the yaml format" := rfl
  rw [parts, ← String.append_assoc]
  rfl

namespace Configuration

/-- Without a descriptor that looks like a comment, plain text is not refused. -/
theorem exists_toText {configuration : Configuration}
    (noComment : ∀ descriptor ∈ configuration.descriptors, looksLikeComment descriptor = false) :
    ∃ content, configuration.toText = .ok content := by
  have none : configuration.descriptors.find? looksLikeComment = none :=
    List.find?_eq_none.2 fun descriptor member => Bool.eq_false_iff.1 (noComment descriptor member)
  exact ⟨_, by rw [toText, none]⟩

/-- A configuration without descriptors that look like comments is read from the lines of
its descriptors behind a byte order mark. -/
theorem Built.read_marked_lines {configuration : Configuration} (built : configuration.Built)
    (noComment : ∀ descriptor ∈ configuration.descriptors, looksLikeComment descriptor = false)
    {store : Store} {path : Path}
    (holds : HoldsText store path (Text.Utf8.markCharacter ::
      configuration.descriptors.flatMap fun descriptor => descriptor.toList ++ ['\n'])) :
    ∃ reading, ((Reader.plainFile path).read store).1 = .ok reading ∧
      reading.configuration = configuration := by
  obtain ⟨reading, read, builtReading, same⟩ := exists_read_plainFile holds
  refine ⟨reading, read, builtReading.eq_of_descriptors built ?_⟩
  rw [same, Text.Utf8.withoutMark, if_pos rfl,
    Text.unifyNewlines_of_not_mem (return_not_mem_lines built.isDescriptor),
    plainDescriptors_flatMap built.isDescriptor noComment]

end Configuration

/-- Whatever is read from a plain text file can be exported as plain text. -/
theorem exists_toText_of_read_plainFile {store : Store} {path : Path} {reading : Reading}
    (read : ((Reader.plainFile path).read store).1 = .ok reading) :
    ∃ content, reading.configuration.toText = .ok content := by
  obtain ⟨text, same⟩ := exists_text_of_read_plainFile read
  refine Configuration.exists_toText ?_
  rw [same]
  exact not_looksLikeComment_of_mem_plainDescriptors

namespace WideConfiguration

variable {configuration : WideConfiguration}

/-- A plain text is refused for the first descriptor that looks like a comment. -/
theorem toText_eq_error {refusal : ExportError} (refused : configuration.toText = .error refusal) :
    ∃ front descriptor behind, configuration.descriptors = front ++ descriptor :: behind ∧
      (∀ earlier ∈ front, earlier.codes.head? ≠ some (.char '#')) ∧
      descriptor.codes.head? = some (.char '#') ∧ refusal = .looksLikeComment descriptor := by
  obtain ⟨descriptor, found, rfl⟩ := toText_eq_error_iff.1 refused
  obtain ⟨isComment, front, behind, split, earlier⟩ := List.find?_eq_some_iff_append.1 found
  refine ⟨front, descriptor, behind, split, fun other member => ?_,
    beq_iff_eq.1 isComment, rfl⟩
  have noComment := earlier other member
  simpa [looksLikeComment] using noComment

/-- There is a file at a place that reads as a configuration exactly if the export of the
configuration as plain text is not refused and the configuration holds no half. A refusal
names the first descriptor that begins with a number sign, and whatever is read from a plain
text file can be exported as plain text. -/
theorem plainText_holds_iff (built : configuration.Built) {store : Store} {path : Path}
    {location : Location} (isPlace : IsFilePlace store path location) :
    ((∃ bytes reading,
        ((Reader.plainFile path).read (store.set location (.file bytes))).1 = .ok reading ∧
        reading.configuration.wide = configuration) ↔
      (∃ content, configuration.toText = .ok content) ∧ configuration.isHalved = false) ∧
    (∀ refusal, configuration.toText = .error refusal →
      ∃ front descriptor behind, configuration.descriptors = front ++ descriptor :: behind ∧
        (∀ earlier ∈ front, earlier.codes.head? ≠ some (.char '#')) ∧
        descriptor.codes.head? = some (.char '#') ∧
        refusal.message = "Descriptor '" ++ descriptor.shown ++
          "' starts with '#' and cannot be exported as text, use the yaml format") ∧
    (∀ (other : Store) (source : Path) (reading : Reading),
      ((Reader.plainFile source).read other).1 = .ok reading →
        ∃ content, reading.configuration.wide.toText = .ok content) := by
  have readable : ∀ (other : Store) (source : Path) (reading : Reading),
      ((Reader.plainFile source).read other).1 = .ok reading →
        ∃ content, reading.configuration.wide.toText = .ok content := by
    intro other source reading read
    obtain ⟨content, exported⟩ := exists_toText_of_read_plainFile read
    exact ⟨_, by rw [Configuration.wide_toText, exported, Except.map]⟩
  refine ⟨⟨?_, ?_⟩, ?_, readable⟩
  · rintro ⟨bytes, reading, read, rfl⟩
    exact ⟨readable _ path reading read, Configuration.isHalved_wide _⟩
  · rintro ⟨⟨content, exported⟩, noHalf⟩
    obtain ⟨narrow, builtNarrow, rfl, -⟩ := built.exists_wide noHalf
    rw [Configuration.wide_toText] at exported
    obtain ⟨text, isText, -⟩ := map_eq_ok.1 exported
    obtain ⟨noComment, -⟩ := Configuration.toText_eq_ok isText
    obtain ⟨reading, read, same⟩ := builtNarrow.read_marked_lines noComment (isPlace.holdsText _)
    exact ⟨_, reading, read, congrArg Configuration.wide same⟩
  · intro refusal refused
    obtain ⟨front, descriptor, behind, split, earlier, isComment, rfl⟩ := toText_eq_error refused
    exact ⟨front, descriptor, behind, split, earlier, isComment,
      message_looksLikeComment descriptor⟩

/-- A configuration that does not read back from its own plain text is read from another
file. -/
theorem plainText_holds_marked_first :
    Configuration.markedFirst.wide.Built ∧
      IsFilePlace .empty (.ofString "cluster.conf") ["cluster.conf"] ∧
      ∃ bytes reading, ((Reader.plainFile (.ofString "cluster.conf")).read
          (Store.empty.set ["cluster.conf"] (.file bytes))).1 = .ok reading ∧
        reading.configuration.wide = Configuration.markedFirst.wide := by
  have built : Configuration.markedFirst.Built := .add .empty "\ufeffa" rfl
  have isPlace : IsFilePlace .empty (.ofString "cluster.conf") ["cluster.conf"] :=
    ⟨by decide +kernel, by decide +kernel, by decide⟩
  exact ⟨built.wide, isPlace, (plainText_holds_iff built.wide isPlace).1.2 ⟨⟨_, rfl⟩, rfl⟩⟩

/-- Plain text is not refused for a half, and yet no file reads as it. -/
theorem toText_accepts_unreadable :
    halvedEnd.Built ∧ (∃ content, halvedEnd.toText = .ok content) ∧
      ∀ (store : Store) (path : Path) (reading : Reading),
        ((Reader.plainFile path).read store).1 = .ok reading →
          reading.configuration.wide ≠ halvedEnd := by
  refine ⟨.add .empty halvedName rfl, ⟨_, rfl⟩, fun store path reading _ same => ?_⟩
  have noHalf := reading.configuration.isHalved_wide
  rw [same] at noHalf
  cases noHalf

end WideConfiguration

end Roster
