import Mathlib.Data.List.Forall2
import Roster.Proofs.Export.PlainText
import Roster.Proofs.Source.PlainFile
import Roster.Proofs.Terminal.ShownExport

/-!
# Reading the screen as plain text

Of each descriptor a line is shown that holds at most one word, and this word is no longer
than the descriptor. So if all descriptors are found again in what is shown of a plain text,
each stands whole in its own line.
-/

namespace Roster

open Roster.Storage (Path Store)
open Roster.Text (Unbroken)
open Roster.Terminal (shownLine shownLines FitsScreen)

/-- The descriptors of a line. -/
def lineDescriptors (line : List Char) : List String := wordsOf (Text.cutComment line)

/-- The descriptors of a text are those of its lines. -/
theorem plainDescriptors_ofLines {lines : List (List Char)}
    (inside : ∀ line ∈ lines, ∀ c ∈ line, Text.endsLine c = false) :
    plainDescriptors (Text.ofLines lines) = lines.flatMap lineDescriptors := by
  induction lines with
  | nil => rfl
  | cons line others inductionHypothesis =>
      obtain ⟨insideLine, insideOthers⟩ := List.forall_mem_cons.1 inside
      rw [List.flatMap_cons, ← inductionHypothesis insideOthers, Text.ofLines_cons,
        plainDescriptors, Text.lines_append insideLine rfl, List.flatMap_cons]
      rfl

/-- The line of a descriptor that is no comment holds the descriptor. -/
theorem lineDescriptors_descriptor {descriptor : String} (valid : IsDescriptor descriptor)
    (noComment : Configuration.looksLikeComment descriptor = false) :
    lineDescriptors descriptor.toList = [descriptor] := by
  have whole : Text.cutComment descriptor.toList = descriptor.toList := by
    obtain ⟨c, rest, start⟩ := List.exists_cons_of_ne_nil valid.nonempty
    have unbroken := valid.unbroken
    rw [start] at unbroken
    have notSign : c ≠ '#' := by
      rintro rfl
      simp [Configuration.looksLikeComment, start] at noComment
    rw [start, Text.cutComment_of_unbroken unbroken, if_neg notSign]
  rw [lineDescriptors, wordsOf, whole, Text.words_of_unbroken valid.nonempty valid.unbroken,
    List.map_singleton, String.ofList_toList]

/-- A line without blanks, but for a space that may stand at its end. -/
def IsWordLine (line : List Char) : Prop :=
  ∃ word, Unbroken word ∧ (line = word ∨ line = word ++ [' '])

/-- A line holds no more than its one word. -/
theorem IsWordLine.words_eq {line word : List Char} (unbroken : Unbroken word)
    (shape : line = word ∨ line = word ++ [' ']) :
    Text.words line = [] ∨ Text.words line = [word] := by
  have ofWord : Text.words word = [] ∨ Text.words word = [word] := by
    cases word with
    | nil => exact .inl rfl
    | cons c rest => exact .inr (Text.words_of_unbroken (List.cons_ne_nil c rest) unbroken)
  rcases shape with rfl | rfl
  · exact ofWord
  · rwa [Text.words_append_blank rfl, Text.words_nil, List.append_nil]

/-- A line with at most one word holds at most one descriptor. If the descriptor is as long
as the line, it is the whole line. -/
theorem IsWordLine.lineDescriptors_eq {line : List Char} (isWordLine : IsWordLine line) :
    lineDescriptors line = [] ∨
      ∃ descriptor, lineDescriptors line = [descriptor] ∧
        (line.length ≤ descriptor.toList.length → line = descriptor.toList) := by
  obtain ⟨word, unbroken, shape⟩ := isWordLine
  rw [lineDescriptors, wordsOf, Text.words_cutComment]
  rcases words_eq unbroken shape with none | one
  · exact .inl (by rw [none]; rfl)
  · rw [one]
    cases sign : Text.beginsWithSign word with
    | true => exact .inl (by simp [sign])
    | false =>
        refine .inr ⟨String.ofList word, by simp [sign], fun long => ?_⟩
        rw [String.toList_ofList] at long ⊢
        rcases shape with rfl | rfl
        · rfl
        · rw [List.length_append, List.length_singleton] at long
          omega

/-- If lines with at most one word each hold as many descriptors as there are lines, each
holds the one at its position. -/
theorem forall₂_of_flatMap_eq {lines : List (List Char)} {descriptors : List String}
    (areWordLines : ∀ line ∈ lines, IsWordLine line) (sameLength : lines.length = descriptors.length)
    (found : lines.flatMap lineDescriptors = descriptors) :
    List.Forall₂ (fun line descriptor => lineDescriptors line = [descriptor]) lines
      descriptors := by
  have atMostOne : ∀ others : List (List Char), (∀ line ∈ others, IsWordLine line) →
      (others.flatMap lineDescriptors).length ≤ others.length := by
    intro others areLines
    induction others with
    | nil => exact Nat.le_refl _
    | cons line others inductionHypothesis =>
        obtain ⟨isLine, rest⟩ := List.forall_mem_cons.1 areLines
        have bound := inductionHypothesis rest
        rcases isLine.lineDescriptors_eq with none | ⟨descriptor, one, -⟩
        · simp only [List.flatMap_cons, none, List.nil_append, List.length_cons]
          omega
        · simp only [List.flatMap_cons, one, List.singleton_append, List.length_cons]
          omega
  induction lines generalizing descriptors with
  | nil =>
      obtain rfl : [] = descriptors := found
      exact .nil
  | cons line others inductionHypothesis =>
      obtain ⟨isLine, rest⟩ := List.forall_mem_cons.1 areWordLines
      rw [List.flatMap_cons] at found
      rcases isLine.lineDescriptors_eq with none | ⟨descriptor, one, -⟩
      · have bound := atMostOne others rest
        rw [none, List.nil_append] at found
        rw [found, ← sameLength, List.length_cons] at bound
        omega
      · rw [one, List.singleton_append] at found
        subst found
        exact .cons one (inductionHypothesis rest (by simpa using sameLength) rfl)

/-- Of a descriptor a line with at most one word is shown. -/
theorem isWordLine_shownLine {line : List Char} (unbroken : Unbroken line) :
    IsWordLine (shownLine line) := by
  obtain ⟨front, behind, split, shown⟩ := Terminal.exists_shownLine line
  refine ⟨front, fun c member => unbroken c ?_, shown.imp_right And.right⟩
  exact List.mem_of_mem_filter (split ▸ List.mem_append_left behind member)

/-- A byte order mark less leaves a line with at most one word. -/
theorem IsWordLine.withoutMark {line : List Char} (isWordLine : IsWordLine line) :
    IsWordLine (Text.Utf8.withoutMark line) := by
  obtain ⟨word, unbroken, shape⟩ := isWordLine
  cases word with
  | nil =>
      refine ⟨[], unbroken, ?_⟩
      rcases shape with rfl | rfl
      · exact .inl rfl
      · exact .inr rfl
  | cons c rest =>
      by_cases marked : c = Text.Utf8.markCharacter
      · refine ⟨rest, unbroken.tail, shape.imp ?_ ?_⟩
        · rintro rfl
          exact if_pos marked
        · rintro rfl
          exact if_pos marked
      · refine ⟨c :: rest, unbroken, shape.imp ?_ ?_⟩
        · rintro rfl
          exact if_neg marked
        · rintro rfl
          exact if_neg marked

/-- No line ends inside a line with at most one word. -/
theorem IsWordLine.not_endsLine {line : List Char} (isWordLine : IsWordLine line) :
    ∀ c ∈ line, Text.endsLine c = false := by
  obtain ⟨word, unbroken, rfl | rfl⟩ := isWordLine
  · exact unbroken.not_endsLine
  · intro c member
    rcases List.mem_append.1 member with inside | isSpace
    · exact unbroken.not_endsLine c inside
    · rw [List.mem_singleton.1 isSpace]
      rfl

/-- A text that is not shorter without a byte order mark in front does not begin with one. -/
theorem withoutMark_of_length_le {text : List Char}
    (whole : text.length ≤ (Text.Utf8.withoutMark text).length) :
    text.head? ≠ some Text.Utf8.markCharacter ∧ Text.Utf8.withoutMark text = text := by
  cases text with
  | nil => exact ⟨nofun, rfl⟩
  | cons c rest =>
      rw [Text.Utf8.withoutMark] at whole ⊢
      by_cases marked : c = Text.Utf8.markCharacter
      · rw [if_pos marked, List.length_cons] at whole
        omega
      · exact ⟨by simpa using marked, if_neg marked⟩

theorem length_withoutMark_le (text : List Char) :
    (Text.Utf8.withoutMark text).length ≤ text.length := by
  cases text with
  | nil => exact Nat.le_refl _
  | cons c rest =>
      rw [Text.Utf8.withoutMark]
      split
      · exact Nat.le_succ _
      · exact Nat.le_refl _

/-- The mark in front of lines is the mark in front of the first line. -/
theorem withoutMark_ofLines (line : List Char) (others : List (List Char)) :
    Text.Utf8.withoutMark (Text.ofLines (line :: others)) =
      Text.ofLines (Text.Utf8.withoutMark line :: others) := by
  cases line with
  | nil => rfl
  | cons c rest =>
      rw [Text.ofLines_cons, Text.ofLines_cons, List.cons_append, Text.Utf8.withoutMark,
        Text.Utf8.withoutMark]
      split
      · rfl
      · rfl

/-- The screen and the readers drop the same mark. -/
theorem withoutByteOrderMark_eq (text : List Char) :
    Terminal.withoutByteOrderMark text = Text.Utf8.withoutMark text := by
  cases text <;> rfl

/-- A descriptor is read from the line that is shown of it only if the line shows the whole
descriptor. -/
theorem fitsScreen_of_lineDescriptors {descriptor : String} (valid : IsDescriptor descriptor)
    (found : lineDescriptors (shownLine descriptor.toList) = [descriptor]) :
    FitsScreen descriptor.toList := by
  rcases (isWordLine_shownLine valid.unbroken).lineDescriptors_eq with none | ⟨other, one, whole⟩
  · rw [none] at found
    cases found
  · rw [one] at found
    obtain ⟨rfl, -⟩ := List.cons.inj found
    exact Terminal.shownLine_eq_self_iff.1 (whole (Terminal.length_shownLine_le _))

/-- The descriptors of lines with at most one word, with newlines unified. -/
theorem plainDescriptors_wordLines {lines : List (List Char)}
    (areWordLines : ∀ line ∈ lines, IsWordLine line) :
    plainDescriptors (Text.unifyNewlines (Text.ofLines lines)) = lines.flatMap lineDescriptors := by
  have noReturn : '\r' ∉ Text.ofLines lines := by
    intro member
    obtain ⟨line, isLine, inLine⟩ := List.mem_flatMap.1 member
    rcases List.mem_append.1 inLine with inside | behind
    · cases (areWordLines line isLine).not_endsLine '\r' inside
    · cases List.mem_singleton.1 behind
  rw [Text.unifyNewlines_of_not_mem noReturn]
  exact plainDescriptors_ofLines fun line member => (areWordLines line member).not_endsLine

/-- The first descriptor is read from the line that is shown of it only if it does not begin
with a byte order mark, which both the screen and the reader drop, and fits. -/
theorem fitsScreen_of_lineDescriptors_first {descriptor : String} (valid : IsDescriptor descriptor)
    (found : lineDescriptors (Text.Utf8.withoutMark
      (shownLine (Text.Utf8.withoutMark descriptor.toList))) = [descriptor]) :
    descriptor.toList.head? ≠ some Text.Utf8.markCharacter ∧ FitsScreen descriptor.toList := by
  have unbroken : Unbroken (Text.Utf8.withoutMark descriptor.toList) := fun c member =>
    valid.unbroken c (Configuration.mem_of_mem_withoutMark member)
  rcases (isWordLine_shownLine unbroken).withoutMark.lineDescriptors_eq with
    none | ⟨other, one, whole⟩
  · rw [none] at found
    cases found
  · rw [one] at found
    obtain ⟨rfl, -⟩ := List.cons.inj found
    -- Each step makes the line shorter or leaves it alone, and nothing is missing at the end.
    have unmarked := length_withoutMark_le other.toList
    have shown := Terminal.length_shownLine_le (Text.Utf8.withoutMark other.toList)
    have read := length_withoutMark_le (shownLine (Text.Utf8.withoutMark other.toList))
    have same := whole (by omega)
    have lengths := congrArg List.length same
    obtain ⟨noMark, kept⟩ := withoutMark_of_length_le
      (show other.toList.length ≤ (Text.Utf8.withoutMark other.toList).length by omega)
    obtain ⟨-, keptShown⟩ := withoutMark_of_length_le
      (show (shownLine (Text.Utf8.withoutMark other.toList)).length ≤
        (Text.Utf8.withoutMark (shownLine (Text.Utf8.withoutMark other.toList))).length by omega)
    rw [keptShown, kept] at same
    exact ⟨noMark, Terminal.shownLine_eq_self_iff.1 same⟩

/-- What is read from the lines that are shown of descriptors are these descriptors exactly if
the first one does not begin with a byte order mark and each of them fits. -/
theorem plainDescriptors_shownLines_iff {first : String} {others : List String}
    (valid : ∀ descriptor ∈ first :: others, IsDescriptor descriptor)
    (noComment : ∀ descriptor ∈ first :: others,
      Configuration.looksLikeComment descriptor = false) :
    plainDescriptors (Text.unifyNewlines (Text.Utf8.withoutMark (shownLines
        (Terminal.withoutByteOrderMark first.toList :: others.map String.toList)))) =
      first :: others ↔
    first.toList.head? ≠ some Text.Utf8.markCharacter ∧
      ∀ descriptor ∈ first :: others, FitsScreen descriptor.toList := by
  obtain ⟨validFirst, validOthers⟩ := List.forall_mem_cons.1 valid
  have unbroken : Unbroken (Text.Utf8.withoutMark first.toList) := fun c member =>
    validFirst.unbroken c (Configuration.mem_of_mem_withoutMark member)
  have areWordLines : ∀ line ∈
      Text.Utf8.withoutMark (shownLine (Text.Utf8.withoutMark first.toList)) ::
        (others.map String.toList).map shownLine, IsWordLine line := by
    refine List.forall_mem_cons.2 ⟨(isWordLine_shownLine unbroken).withoutMark, ?_⟩
    intro line member
    rw [List.map_map] at member
    obtain ⟨descriptor, isOther, rfl⟩ := List.mem_map.1 member
    exact isWordLine_shownLine (validOthers descriptor isOther).unbroken
  rw [withoutByteOrderMark_eq, shownLines, List.map_cons, withoutMark_ofLines,
    plainDescriptors_wordLines areWordLines]
  constructor
  · intro found
    have each := forall₂_of_flatMap_eq areWordLines (by simp) found
    obtain ⟨ofFirst, ofOthers⟩ := List.forall₂_cons.1 each
    rw [List.map_map, List.forall₂_map_left_iff, List.forall₂_same] at ofOthers
    obtain ⟨noMark, fits⟩ := fitsScreen_of_lineDescriptors_first validFirst ofFirst
    refine ⟨noMark, List.forall_mem_cons.2 ⟨fits, fun descriptor member => ?_⟩⟩
    exact fitsScreen_of_lineDescriptors (validOthers descriptor member)
      (ofOthers descriptor member)
  · rintro ⟨noMark, fits⟩
    have unmarked := withoutMark_eq_self noMark
    have shown : ∀ descriptor ∈ first :: others,
        shownLine descriptor.toList = descriptor.toList := fun descriptor member =>
      Terminal.shownLine_eq_self_iff.2 (fits descriptor member)
    have shownOthers : (others.map String.toList).map shownLine = others.map String.toList := by
      rw [List.map_map]
      exact List.map_congr_left fun descriptor member =>
        shown descriptor (List.mem_cons_of_mem _ member)
    rw [unmarked, shown first List.mem_cons_self, unmarked, shownOthers, ← List.map_cons,
      List.flatMap_map, List.flatMap_congr fun descriptor member =>
        lineDescriptors_descriptor (valid descriptor member) (noComment descriptor member)]
    exact List.flatMap_singleton' _

/-- The lines of a plain text are its descriptors. -/
theorem ofLines_descriptors (descriptors : List String) :
    (descriptors.flatMap fun descriptor => descriptor.toList ++ ['\n']) =
      Text.ofLines (descriptors.map String.toList) := by
  rw [Text.ofLines, List.flatMap_map]

theorem newline_not_mem_descriptors {descriptors : List String}
    (valid : ∀ descriptor ∈ descriptors, IsDescriptor descriptor) :
    ∀ line ∈ descriptors.map String.toList, '\n' ∉ line := by
  intro line member isNewline
  obtain ⟨descriptor, isListed, rfl⟩ := List.mem_map.1 member
  cases (valid descriptor isListed).noBlank '\n' isNewline

/-- A plain text with descriptors in it ends in one newline. -/
theorem endsOnce_descriptors {descriptors : List String} (nonempty : descriptors ≠ [])
    (valid : ∀ descriptor ∈ descriptors, IsDescriptor descriptor) :
    Terminal.EndsOnce (descriptors.flatMap fun descriptor => descriptor.toList ++ ['\n']) := by
  obtain ⟨front, last, rfl⟩ := (List.eq_nil_or_concat' descriptors).resolve_left nonempty
  have validLast := valid last (by simp)
  rw [List.flatMap_append, List.flatMap_singleton]
  refine Terminal.endsOnce_append _ validLast.nonempty fun ends => ?_
  cases validLast.noBlank '\n' (List.mem_of_getLast? ends)

/-- A plain text fits whole if its first descriptor does not begin with a byte order mark and
each of its descriptors fits. -/
theorem fitsWhole_descriptors_iff {first : String} {others : List String}
    (valid : ∀ descriptor ∈ first :: others, IsDescriptor descriptor) :
    Terminal.FitsWhole ((first :: others).flatMap fun descriptor => descriptor.toList ++ ['\n']) ↔
      first.toList.head? ≠ some Text.Utf8.markCharacter ∧
        ∀ descriptor ∈ first :: others, FitsScreen descriptor.toList := by
  have begins : (Text.ofLines ((first :: others).map String.toList)).head? =
      first.toList.head? := by
    obtain ⟨c, rest, start⟩ := List.exists_cons_of_ne_nil (valid first List.mem_cons_self).nonempty
    rw [List.map_cons, Text.ofLines_cons, start]
    rfl
  have lines := Text.endedLines_ofLines (newline_not_mem_descriptors valid)
  rw [ofLines_descriptors]
  constructor
  · rintro ⟨unmarked, fits⟩
    rw [lines] at fits
    rw [begins] at unmarked
    exact ⟨unmarked, fun descriptor member => fits _ (List.mem_map_of_mem member)⟩
  · rintro ⟨unmarked, fits⟩
    refine ⟨begins ▸ unmarked, fun line member => ?_⟩
    rw [lines] at member
    obtain ⟨descriptor, isListed, rfl⟩ := List.mem_map.1 member
    exact fits descriptor isListed

/-- Without a byte order mark in front of a text, the first of its lines begins behind it. -/
theorem pieces_withoutByteOrderMark {body first : List Char} {others : List (List Char)}
    (clean : ∀ line ∈ first :: others, '\n' ∉ line) (begins : first ≠ [])
    (whole : body ++ ['\n'] = Text.ofLines (first :: others)) :
    Text.pieces '\n' (Terminal.withoutByteOrderMark body) =
      Terminal.withoutByteOrderMark first :: others := by
  obtain ⟨c, rest, rfl⟩ := List.exists_cons_of_ne_nil begins
  obtain ⟨cleanFirst, cleanOthers⟩ := List.forall_mem_cons.1 clean
  have cleanUnmarked : ∀ line ∈ Terminal.withoutByteOrderMark (c :: rest) :: others,
      '\n' ∉ line := by
    refine List.forall_mem_cons.2 ⟨fun member => cleanFirst ?_, cleanOthers⟩
    rw [withoutByteOrderMark_eq] at member
    exact Configuration.mem_of_mem_withoutMark member
  rw [← Text.endedLines_append, ← Text.endedLines_ofLines cleanUnmarked, Text.ofLines_cons]
  rw [Text.ofLines_cons] at whole
  cases body with
  | nil =>
      obtain ⟨rfl, -⟩ := List.cons.inj whole
      exact absurd List.mem_cons_self cleanFirst
  | cons d behind =>
      obtain ⟨rfl, same⟩ := List.cons.inj whole
      rw [Terminal.withoutByteOrderMark, Terminal.withoutByteOrderMark]
      split
      · exact congrArg Text.endedLines same
      · exact congrArg (fun text => Text.endedLines (d :: text)) same

/-- What is read from the screen as plain text are the descriptors that were exported exactly
if the plain text fits whole. -/
theorem plainDescriptors_exportText_iff {descriptors : List String} (nonempty : descriptors ≠ [])
    (valid : ∀ descriptor ∈ descriptors, IsDescriptor descriptor)
    (noComment : ∀ descriptor ∈ descriptors, Configuration.looksLikeComment descriptor = false) :
    plainDescriptors (Text.unifyNewlines (Text.Utf8.withoutMark (Terminal.exportText
        (descriptors.flatMap fun descriptor => descriptor.toList ++ ['\n'])).toList)) =
      descriptors ↔
    Terminal.FitsWhole (descriptors.flatMap fun descriptor => descriptor.toList ++ ['\n']) := by
  obtain ⟨first, others, rfl⟩ := List.exists_cons_of_ne_nil nonempty
  obtain ⟨body, whole, ends⟩ := endsOnce_descriptors nonempty valid
  have lines := newline_not_mem_descriptors valid
  rw [fitsWhole_descriptors_iff valid, ← plainDescriptors_shownLines_iff valid noComment, whole,
    Terminal.toList_exportText ends]
  rw [ofLines_descriptors, List.map_cons] at whole
  rw [List.map_cons] at lines
  rw [pieces_withoutByteOrderMark lines (valid first List.mem_cons_self).nonempty whole.symm]

end Roster
