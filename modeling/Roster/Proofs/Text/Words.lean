import Roster.Proofs.Text.Unbroken

/-!
# Words and lines as pieces

Words and lines are what is left of a text between the characters of a class: the
words are the non-empty pieces between blank characters, the lines the pieces
between line ends. Since every line end is blank, cutting a text into lines first
neither joins words nor cuts one, and neither does writing newlines otherwise.
-/

namespace Roster.Text

/-- What holds of the texts without a separator, and of a piece with a separator and a
text behind it whenever it holds of that text, holds of all texts. -/
@[elab_as_elim]
theorem separated_induction (separates : Char → Bool) {property : List Char → Prop}
    (whole : ∀ piece, (∀ c ∈ piece, separates c = false) → property piece)
    (cut : ∀ piece c rest, (∀ d ∈ piece, separates d = false) → separates c = true →
      property rest → property (piece ++ c :: rest)) (text : List Char) : property text := by
  -- The piece in front grows until a separator ends it.
  have behind : ∀ piece, (∀ c ∈ piece, separates c = false) → property (piece ++ text) := by
    induction text with
    | nil =>
        intro piece clean
        rw [List.append_nil]
        exact whole piece clean
    | cons c rest inductionHypothesis =>
        intro piece clean
        cases kind : separates c with
        | true => exact cut piece c rest clean kind (inductionHypothesis [] (List.forall_mem_nil _))
        | false =>
            have longer : ∀ d ∈ piece ++ [c], separates d = false := by
              intro d member
              rcases List.mem_append.1 member with inside | last
              · exact clean d inside
              · rw [List.mem_singleton.1 last, kind]
            simpa using inductionHypothesis (piece ++ [c]) longer
  exact behind [] (List.forall_mem_nil _)

/-- The non-empty pieces of a text between blank characters. -/
def visiblePieces (text : List Char) : List (List Char) :=
  (text.splitOnP isBlank).filter fun piece => !piece.isEmpty

/-- The pieces of a text between line ends. Behind the last line end there is a piece
only if it is not empty. -/
def linePieces (text : List Char) : List (List Char) :=
  let pieces := text.splitOnP endsLine
  if pieces.getLast? = some [] then pieces.dropLast else pieces

/-- The first piece of a text is empty unless the text begins inside a word. -/
theorem startsWord_eq {text first : List Char} {others : List (List Char)}
    (pieces : text.splitOnP isBlank = first :: others) : startsWord text = !first.isEmpty := by
  cases text with
  | nil =>
      rw [List.splitOnP_nil] at pieces
      obtain ⟨rfl, -⟩ := List.cons.inj pieces
      rfl
  | cons c rest =>
      rw [List.splitOnP_cons_eq_if_modifyHead] at pieces
      obtain ⟨piece, more, split⟩ :=
        List.exists_cons_of_ne_nil (List.splitOnP_ne_nil isBlank rest)
      by_cases blank : isBlank c = true
      · rw [if_pos blank] at pieces
        obtain ⟨rfl, -⟩ := List.cons.inj pieces
        simp [startsWord, blank]
      · rw [if_neg blank, split, List.modifyHead_cons] at pieces
        obtain ⟨rfl, -⟩ := List.cons.inj pieces
        simpa [startsWord] using blank

/-- The words of a text are its non-empty pieces between blank characters. -/
theorem words_eq_visiblePieces (text : List Char) : words text = visiblePieces text := by
  unfold visiblePieces
  induction text with
  | nil => simp
  | cons c rest inductionHypothesis =>
      obtain ⟨first, others, split⟩ :=
        List.exists_cons_of_ne_nil (List.splitOnP_ne_nil isBlank rest)
      rw [split] at inductionHypothesis
      rw [words, startsWord_eq split, inductionHypothesis, List.splitOnP_cons_eq_if_modifyHead,
        split]
      by_cases blank : isBlank c = true
      · simp [blank]
      · cases first with
        | nil => simp [blank]
        | cons d more => simp [blank]

/-- The words on both sides of a blank character. -/
theorem words_append_blank {c : Char} (blank : isBlank c = true) (front behind : List Char) :
    words (front ++ c :: behind) = words front ++ words behind := by
  simp only [words_eq_visiblePieces, visiblePieces, List.splitOnP_append_cons front behind blank,
    List.filter_append]

/-- A text that begins visible has a first word that begins the same way. -/
theorem exists_words_cons {c : Char} (visible : isBlank c = false) (rest : List Char) :
    ∃ word others, words (c :: rest) = (c :: word) :: others := by
  rw [words, visible]
  split
  · contradiction
  · split
    · split
      · exact ⟨[], [], rfl⟩
      · exact ⟨_, _, rfl⟩
    · exact ⟨[], _, rfl⟩

/-- Words are not empty and hold no blank characters. -/
theorem isWord_of_mem_words {text word : List Char} (member : word ∈ words text) :
    word ≠ [] ∧ Unbroken word := by
  induction text using separated_induction isBlank with
  | whole piece unbroken =>
      cases piece with
      | nil => cases member
      | cons c rest =>
          rw [words_of_unbroken (List.cons_ne_nil c rest) unbroken, List.mem_singleton] at member
          subst member
          exact ⟨List.cons_ne_nil c rest, unbroken⟩
  | cut piece c rest unbroken blank inductionHypothesis =>
      rw [words_append_blank blank, List.mem_append] at member
      rcases member with inside | behind
      · cases piece with
        | nil => cases inside
        | cons d others =>
            rw [words_of_unbroken (List.cons_ne_nil d others) unbroken,
              List.mem_singleton] at inside
            subst inside
            exact ⟨List.cons_ne_nil d others, unbroken⟩
      · exact inductionHypothesis behind

/-- A text without line ends is one line, unless it is empty. -/
theorem lines_of_not_endsLine {text : List Char} (inside : ∀ c ∈ text, endsLine c = false) :
    lines text = if text.isEmpty then [] else [text] := by
  induction text with
  | nil => rfl
  | cons c rest inductionHypothesis =>
      have goesOn : endsLine c = false := inside c List.mem_cons_self
      rw [lines, goesOn,
        inductionHypothesis fun d member => inside d (List.mem_cons_of_mem _ member)]
      cases rest <;> rfl

/-- The lines of a text are its pieces between line ends. -/
theorem lines_eq_linePieces (text : List Char) : lines text = linePieces text := by
  unfold linePieces
  induction text using separated_induction endsLine with
  | whole piece inside =>
      rw [lines_of_not_endsLine inside, List.splitOnP_eq_singleton inside]
      cases piece <;> simp
  | cut piece c rest inside ends inductionHypothesis =>
      obtain ⟨first, others, split⟩ :=
        List.exists_cons_of_ne_nil (List.splitOnP_ne_nil endsLine rest)
      rw [lines_append inside ends, inductionHypothesis,
        List.splitOnP_append_cons_of_forall_mem inside c ends, split]
      simp only [List.getLast?_cons_cons, List.dropLast_cons_cons]
      split <;> rfl

/-- The words of the lines of a text are the words of the text. -/
theorem flatMap_words_lines (text : List Char) : (lines text).flatMap words = words text := by
  induction text using separated_induction endsLine with
  | whole piece inside =>
      rw [lines_of_not_endsLine inside]
      cases piece <;> simp
  | cut piece c rest inside ends inductionHypothesis =>
      rw [lines_append inside ends, List.flatMap_cons, inductionHypothesis,
        words_append_blank (isBlank_of_endsLine ends)]

/-- How newlines are written does not concern the beginning of a text. -/
theorem startsWord_unifyNewlines (text : List Char) :
    startsWord (unifyNewlines text) = startsWord text := by
  fun_cases unifyNewlines text with
  | case1 => rfl
  | case2 => rfl
  | case3 c rest _ =>
      by_cases isReturn : c = '\r'
      · rw [if_pos isReturn, isReturn]
        rfl
      · rw [if_neg isReturn]
        rfl

/-- How newlines are written does not concern the words. -/
theorem words_unifyNewlines (text : List Char) : words (unifyNewlines text) = words text := by
  fun_induction unifyNewlines text with
  | case1 => rfl
  | case2 rest inductionHypothesis =>
      rw [words_cons_of_blank rfl, inductionHypothesis, words_cons_of_blank rfl,
        words_cons_of_blank rfl]
  | case3 c rest _ inductionHypothesis =>
      by_cases isReturn : c = '\r'
      · rw [if_pos isReturn, isReturn, words_cons_of_blank rfl, inductionHypothesis,
          words_cons_of_blank rfl]
      · rw [if_neg isReturn, words, words, startsWord_unifyNewlines, inductionHypothesis]

end Roster.Text
