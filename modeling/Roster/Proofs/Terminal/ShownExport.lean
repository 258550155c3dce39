import Mathlib.Data.List.Basic
import Roster.Proofs.Terminal.Screen

/-!
# What is shown of an export

An export is shown line by line. It appears on the screen as it is exactly if it does not
begin with a byte order mark, which gets lost, and each of its lines fits.
-/

namespace Roster

namespace Text

/-- The first piece of a text, up to the separator that ends it. -/
theorem pieces_append {separator : Char} {piece : List Char} (clean : separator ∉ piece)
    (rest : List Char) :
    pieces separator (piece ++ separator :: rest) = piece :: pieces separator rest := by
  induction piece with
  | nil => rw [List.nil_append, pieces, if_pos rfl]
  | cons c others inductionHypothesis =>
      rw [List.mem_cons, not_or] at clean
      rw [List.cons_append, pieces, if_neg (Ne.symm clean.1), inductionHypothesis clean.2]

/-- A text as its lines, each with a newline behind it. -/
def ofLines (lines : List (List Char)) : List Char := lines.flatMap fun line => line ++ ['\n']

@[simp] theorem ofLines_cons (line : List Char) (others : List (List Char)) :
    ofLines (line :: others) = line ++ '\n' :: ofLines others := by
  simp [ofLines]

/-- The lines of a text in which a newline stands behind each of them. -/
def endedLines (text : List Char) : List (List Char) := (pieces '\n' text).dropLast

/-- Lines are found again. -/
theorem endedLines_ofLines {lines : List (List Char)} (clean : ∀ line ∈ lines, '\n' ∉ line) :
    endedLines (ofLines lines) = lines := by
  have cut : pieces '\n' (ofLines lines) = lines ++ [[]] := by
    induction lines with
    | nil => rfl
    | cons line others inductionHypothesis =>
        obtain ⟨cleanLine, cleanOthers⟩ := List.forall_mem_cons.1 clean
        rw [ofLines_cons, pieces_append cleanLine, inductionHypothesis cleanOthers,
          List.cons_append]
  rw [endedLines, cut, List.dropLast_concat]

/-- A text with a newline at its end is made of its lines. -/
theorem exists_ofLines (body : List Char) :
    ∃ lines, (∀ line ∈ lines, '\n' ∉ line) ∧ body ++ ['\n'] = ofLines lines ∧
      pieces '\n' body = lines := by
  induction body with
  | nil => exact ⟨[[]], by simp, rfl, rfl⟩
  | cons c rest inductionHypothesis =>
      obtain ⟨lines, clean, same, cut⟩ := inductionHypothesis
      by_cases ends : c = '\n'
      · refine ⟨[] :: lines, ?_, ?_, ?_⟩
        · exact List.forall_mem_cons.2 ⟨List.not_mem_nil, clean⟩
        · rw [ofLines_cons, ← same, ends]
          rfl
        · rw [pieces, if_pos ends, cut]
      · obtain ⟨first, others, rfl⟩ :=
          List.exists_cons_of_ne_nil (cut ▸ pieces_ne_nil '\n' rest)
        obtain ⟨cleanFirst, cleanOthers⟩ := List.forall_mem_cons.1 clean
        refine ⟨(c :: first) :: others, ?_, ?_, ?_⟩
        · refine List.forall_mem_cons.2 ⟨?_, cleanOthers⟩
          rw [List.mem_cons, not_or]
          exact ⟨Ne.symm ends, cleanFirst⟩
        · rw [List.cons_append, same, ofLines_cons, ofLines_cons]
          rfl
        · rw [pieces, if_neg ends, cut]

/-- Its lines are the pieces of what stands in front of the last newline. -/
theorem endedLines_append (body : List Char) : endedLines (body ++ ['\n']) = pieces '\n' body := by
  obtain ⟨lines, clean, same, cut⟩ := exists_ofLines body
  rw [same, endedLines_ofLines clean, cut]

end Text

namespace Terminal

/-- Lines as they are shown. -/
def shownLines (lines : List (List Char)) : List Char := Text.ofLines (lines.map shownLine)

/-- A single newline at the end of a text is taken off. -/
theorem trimNewlines_append {body : List Char} (ends : body.getLast? ≠ some '\n') :
    trimNewlines (body ++ ['\n']) = body := by
  rw [List.getLast?_eq_head?_reverse] at ends
  rw [trimNewlines, List.reverse_append, List.reverse_singleton, List.singleton_append,
    List.dropWhile_cons_of_pos (by decide)]
  cases same : body.reverse with
  | nil => simpa using same.symm
  | cons c rest =>
      have differs : c ≠ '\n' := by simpa [same] using ends
      rw [List.dropWhile_cons_of_neg (by simpa using differs), ← same, List.reverse_reverse]

/-- Lines are shown as lines. -/
theorem newline_not_mem_shownLine {line : List Char} (clean : '\n' ∉ line) :
    '\n' ∉ shownLine line := by
  intro member
  rcases mem_of_mem_shownLine member with inside | isSpace
  · exact clean (List.mem_of_mem_filter inside)
  · cases isSpace

/-- No text is shown longer than it is. -/
theorem length_shownLines_le (lines : List (List Char)) :
    (shownLines lines).length ≤ (Text.ofLines lines).length := by
  induction lines with
  | nil => exact Nat.le_refl _
  | cons line others inductionHypothesis =>
      have shorter := length_shownLine_le line
      rw [shownLines] at inductionHypothesis ⊢
      simp only [List.map_cons, Text.ofLines_cons, List.length_append, List.length_cons]
      omega

/-- Lines are shown as they are exactly if each of them fits. -/
theorem shownLines_eq_iff {lines : List (List Char)} (clean : ∀ line ∈ lines, '\n' ∉ line) :
    shownLines lines = Text.ofLines lines ↔ ∀ line ∈ lines, FitsScreen line := by
  constructor
  · intro same line member
    have cleanShown : ∀ shown ∈ lines.map shownLine, '\n' ∉ shown := by
      intro shown isShown
      obtain ⟨other, isLine, rfl⟩ := List.mem_map.1 isShown
      exact newline_not_mem_shownLine (clean other isLine)
    have again := congrArg Text.endedLines same
    rw [shownLines, Text.endedLines_ofLines cleanShown, Text.endedLines_ofLines clean] at again
    have fixed : lines.map shownLine = lines.map id := again.trans (List.map_id lines).symm
    exact shownLine_eq_self_iff.1 (List.map_inj_left.1 fixed line member)
  · intro fits
    have fixed : lines.map shownLine = lines.map id :=
      List.map_inj_left.2 fun line member => shownLine_eq_self_iff.2 (fits line member)
    rw [shownLines, fixed, List.map_id]

/-- An export is shown line by line, but for a byte order mark in front. -/
theorem toList_exportText {body : List Char} (ends : body.getLast? ≠ some '\n') :
    (exportText (body ++ ['\n'])).toList =
      shownLines (Text.pieces '\n' (withoutByteOrderMark body)) := by
  have notEmpty : (body ++ ['\n']).isEmpty = false := by simp
  rw [exportText, notEmpty, if_neg Bool.false_ne_true, trimNewlines_append ends, textOfLines,
    String.toList_ofList]
  rfl

/-- A text without a byte order mark in front is shown as its lines. -/
theorem exists_lines_exportText {body : List Char} (ends : body.getLast? ≠ some '\n')
    (unmarked : body.head? ≠ some '\uFEFF') :
    ∃ lines, (∀ line ∈ lines, '\n' ∉ line) ∧ body ++ ['\n'] = Text.ofLines lines ∧
      (exportText (body ++ ['\n'])).toList = shownLines lines := by
  have same : withoutByteOrderMark body = body := by
    cases body with
    | nil => rfl
    | cons c rest => exact if_neg (by simpa using unmarked)
  obtain ⟨lines, clean, whole, cut⟩ := Text.exists_ofLines body
  exact ⟨lines, clean, whole, by rw [toList_exportText ends, same, cut]⟩

/-- A text that ends in one newline. -/
def EndsOnce (content : List Char) : Prop :=
  ∃ body, content = body ++ ['\n'] ∧ body.getLast? ≠ some '\n'

/-- A text ends in one newline if what stands in front of the newline ends otherwise. -/
theorem endsOnce_append (front : List Char) {last : List Char} (nonempty : last ≠ [])
    (ends : last.getLast? ≠ some '\n') : EndsOnce (front ++ (last ++ ['\n'])) := by
  refine ⟨front ++ last, (List.append_assoc _ _ _).symm, ?_⟩
  rwa [List.getLast?_append_of_ne_nil _ nonempty]

/-- An export that does not begin with a byte order mark and whose lines all fit on the
screen. -/
structure FitsWhole (content : List Char) : Prop where
  unmarked : content.head? ≠ some '\uFEFF'
  lines : ∀ line ∈ Text.endedLines content, FitsScreen line

instance (content : List Char) : Decidable (FitsWhole content) :=
  decidable_of_iff (content.head? ≠ some '\uFEFF' ∧
      ∀ line ∈ Text.endedLines content, FitsScreen line)
    ⟨fun fits => ⟨fits.1, fits.2⟩, fun fits => ⟨fits.unmarked, fits.lines⟩⟩

/-- A byte order mark in front of a text is missing in what is shown of it. -/
theorem exportText_marked_ne (rest : List Char)
    (ends : ('\uFEFF' :: rest).getLast? ≠ some '\n') :
    (exportText ('\uFEFF' :: rest ++ ['\n'])).toList ≠ '\uFEFF' :: rest ++ ['\n'] := by
  intro same
  obtain ⟨lines, -, whole, cut⟩ := Text.exists_ofLines rest
  rw [toList_exportText ends, withoutByteOrderMark, if_pos rfl, cut] at same
  have shorter := length_shownLines_le lines
  rw [same, ← whole, List.cons_append, List.length_cons] at shorter
  omega

/-- An export appears as it is exactly if it fits whole. -/
theorem exportText_eq_iff {content : List Char} (endsOnce : EndsOnce content) :
    (exportText content).toList = content ↔ FitsWhole content := by
  obtain ⟨body, rfl, ends⟩ := endsOnce
  by_cases marked : body.head? = some '\uFEFF'
  · obtain ⟨rest, rfl⟩ : ∃ rest, body = '\uFEFF' :: rest := by
      cases body with
      | nil => cases marked
      | cons c rest => exact ⟨rest, by simpa using marked⟩
    exact iff_of_false (exportText_marked_ne rest ends) fun fits => fits.unmarked rfl
  · have noMark : (body ++ ['\n']).head? ≠ some '\uFEFF' := by
      cases body with
      | nil => decide
      | cons c rest => exact marked
    obtain ⟨lines, clean, whole, shown⟩ := exists_lines_exportText ends marked
    rw [shown, whole, shownLines_eq_iff clean]
    constructor
    · intro fits
      exact ⟨whole ▸ noMark, by rwa [Text.endedLines_ofLines clean]⟩
    · intro fits
      have inLines := fits.lines
      rwa [Text.endedLines_ofLines clean] at inLines

end Terminal

end Roster
