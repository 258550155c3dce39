import Roster.Proofs.Text.Words

/-!
# Comments end the words of a line

A comment is found character by character, by what stands in front of a number sign.
In the words of a line it shows as a rule of its own: the first word that begins with
a number sign is dropped, and all words behind it.
-/

namespace Roster.Text

/-- Whether a word begins with a number sign. -/
def beginsWithSign (word : List Char) : Bool :=
  word.head? == some '#'

/-- Behind a blank character a comment starts as it does at the start of a line. -/
theorem cutCommentAfter_of_blank {previous : Char} (blank : isBlank previous = true)
    (text : List Char) : cutCommentAfter (some previous) text = cutComment text := by
  cases text with
  | nil => rfl
  | cons c rest =>
      have same : startsComment (some previous) c = startsComment none c := by
        simp [startsComment, blank]
      rw [cutComment, cutCommentAfter, cutCommentAfter, same]

/-- A piece without blanks passes, if no comment starts with it, and so does the blank
character behind it. -/
theorem cutCommentAfter_append {piece : List Char} (unbroken : Unbroken piece) {c : Char}
    (blank : isBlank c = true) (rest : List Char) {previous : Option Char}
    (noComment : previous.all isBlank = true → beginsWithSign piece = false) :
    cutCommentAfter previous (piece ++ c :: rest) = piece ++ c :: cutComment rest := by
  induction piece generalizing previous with
  | nil =>
      have noSign : startsComment previous c = false := by
        have differs : c ≠ '#' := by
          rintro rfl
          cases blank
        simp [startsComment, differs]
      rw [List.nil_append, cutCommentAfter, noSign, cutCommentAfter_of_blank blank]
      rfl
  | cons d others inductionHypothesis =>
      have passes : startsComment previous d = false := by
        rw [Bool.eq_false_iff]
        intro starts
        rw [startsComment, Bool.and_eq_true, beq_iff_eq] at starts
        have noSign := noComment starts.2
        simp [beginsWithSign, starts.1] at noSign
      have inside : (some d).all isBlank = true → beginsWithSign others = false := by
        intro isBlank
        rw [Option.all_some, unbroken.head] at isBlank
        cases isBlank
      rw [List.cons_append, cutCommentAfter, passes, inductionHypothesis unbroken.tail inside]
      rfl

theorem exists_cons_of_beginsWithSign {piece : List Char} (sign : beginsWithSign piece = true) :
    ∃ others, piece = '#' :: others := by
  cases piece with
  | nil => cases sign
  | cons c others => exact ⟨others, by simpa [beginsWithSign] using sign⟩

/-- A piece without blanks that does not begin with a number sign is kept as a word. -/
theorem takeWhile_words_of_unbroken {piece : List Char} (unbroken : Unbroken piece)
    (noSign : beginsWithSign piece = false) :
    (words piece).takeWhile (fun word => !beginsWithSign word) = words piece := by
  cases piece with
  | nil => rfl
  | cons c others =>
      rw [words_of_unbroken (List.cons_ne_nil c others) unbroken]
      simp [noSign]

/-- The words of a line in front of its comment are those in front of the first word
that begins with a number sign. -/
theorem words_cutComment (line : List Char) :
    words (cutComment line) = (words line).takeWhile fun word => !beginsWithSign word := by
  induction line using separated_induction isBlank with
  | whole piece unbroken =>
      cases sign : beginsWithSign piece with
      | true =>
          obtain ⟨others, rfl⟩ := exists_cons_of_beginsWithSign sign
          rw [words_of_unbroken (List.cons_ne_nil '#' others) unbroken]
          rfl
      | false =>
          have whole : cutComment piece = piece := by
            cases piece with
            | nil => rfl
            | cons c others =>
                have differs : c ≠ '#' := by simpa [beginsWithSign] using sign
                rw [cutComment_of_unbroken unbroken, if_neg differs]
          rw [whole, takeWhile_words_of_unbroken unbroken sign]
  | cut piece c rest unbroken blank inductionHypothesis =>
      rw [words_append_blank blank]
      cases sign : beginsWithSign piece with
      | true =>
          obtain ⟨others, rfl⟩ := exists_cons_of_beginsWithSign sign
          rw [words_of_unbroken (List.cons_ne_nil '#' others) unbroken]
          rfl
      | false =>
          rw [cutComment, cutCommentAfter_append unbroken blank rest fun _ => sign,
            words_append_blank blank, inductionHypothesis, List.takeWhile_append,
            takeWhile_words_of_unbroken unbroken sign, if_pos rfl]

end Roster.Text
