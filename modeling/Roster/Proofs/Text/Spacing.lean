import Roster.Proofs.Text.Words

/-!
# Words with blanks around them

A text is spaced if it is put together from words, with blank characters in front of the first
word, behind the last one and between any two; only between two words there must be one. How
many there are, and which, does not concern the words.
-/

namespace Roster.Text

/-- A word with the blank characters behind it. -/
structure SpacedWord where
  word : List Char
  behind : List Char
  deriving DecidableEq, Repr

/-- Words with the blank characters around them. -/
structure Spacing where
  front : List Char
  parts : List SpacedWord
  deriving DecidableEq, Repr

namespace Spacing

/-- The text that is put together. -/
def text (spacing : Spacing) : List Char :=
  spacing.front ++ spacing.parts.flatMap fun part => part.word ++ part.behind

/-- The words in order. -/
def words (spacing : Spacing) : List (List Char) :=
  spacing.parts.map SpacedWord.word

/-- The words are words, all that is around them is blank, and no two of them touch. -/
structure IsProper (spacing : Spacing) : Prop where
  isWord : ∀ part ∈ spacing.parts, part.word ≠ [] ∧ Unbroken part.word
  blankFront : ∀ c ∈ spacing.front, isBlank c = true
  blankBehind : ∀ part ∈ spacing.parts, ∀ c ∈ part.behind, isBlank c = true
  apart : ∀ part ∈ spacing.parts.dropLast, part.behind ≠ []

end Spacing

/-- Blank characters in front of a text add no words. -/
theorem words_append_of_blank {front : List Char} (blank : ∀ c ∈ front, isBlank c = true)
    (rest : List Char) : words (front ++ rest) = words rest := by
  induction front with
  | nil => rfl
  | cons c others inductionHypothesis =>
      rw [List.cons_append, words_cons_of_blank (blank c List.mem_cons_self),
        inductionHypothesis fun d member => blank d (List.mem_cons_of_mem _ member)]

/-- A word is the first one of a text that does not go on inside it. -/
theorem words_append_of_not_startsWord {word rest : List Char} (nonempty : word ≠ [])
    (unbroken : Unbroken word) (ends : startsWord rest = false) :
    words (word ++ rest) = word :: words rest := by
  cases rest with
  | nil => rw [List.append_nil, words_of_unbroken nonempty unbroken, words_nil]
  | cons c others =>
      have blank : isBlank c = true := by simpa [startsWord] using ends
      rw [words_append_blank blank, words_of_unbroken nonempty unbroken, words_cons_of_blank blank,
        List.singleton_append]

namespace Spacing

/-- What is left behind the first word is put together from the other words. -/
theorem IsProper.tail {front : List Char} {part : SpacedWord} {others : List SpacedWord}
    (proper : IsProper { front, parts := part :: others }) :
    IsProper { front := part.behind, parts := others } where
  isWord := fun other member => proper.isWord other (List.mem_cons_of_mem _ member)
  blankFront := proper.blankBehind part List.mem_cons_self
  blankBehind := fun other member => proper.blankBehind other (List.mem_cons_of_mem _ member)
  apart := by
    intro other member
    refine proper.apart other ?_
    have more : others ≠ [] := by
      rintro rfl
      cases member
    rw [List.dropLast_cons_of_ne_nil more]
    exact List.mem_cons_of_mem _ member

/-- What is left behind the first word does not go on inside it. -/
theorem IsProper.not_startsWord {front : List Char} {part : SpacedWord}
    {others : List SpacedWord} (proper : IsProper { front, parts := part :: others }) :
    startsWord (text { front := part.behind, parts := others }) = false := by
  cases behind : part.behind with
  | nil =>
      cases others with
      | nil => rfl
      | cons other more => exact absurd behind (proper.apart part List.mem_cons_self)
  | cons c blanks =>
      have blank : isBlank c = true :=
        proper.blankBehind part List.mem_cons_self c (behind ▸ List.mem_cons_self)
      simp [text, startsWord, blank]

/-- The words of a text that is put together are those it is put together from. -/
theorem IsProper.words_text {spacing : Spacing} (proper : spacing.IsProper) :
    Text.words spacing.text = spacing.words := by
  obtain ⟨front, parts⟩ := spacing
  induction parts generalizing front with
  | nil => exact words_append_of_blank proper.blankFront []
  | cons part others inductionHypothesis =>
      obtain ⟨nonempty, unbroken⟩ := proper.isWord part List.mem_cons_self
      have split : text { front, parts := part :: others } =
          front ++ (part.word ++ text { front := part.behind, parts := others }) := by
        simp [text]
      rw [split, words_append_of_blank proper.blankFront,
        words_append_of_not_startsWord nonempty unbroken proper.not_startsWord,
        inductionHypothesis part.behind proper.tail]
      rfl

end Spacing

end Roster.Text
