import Roster.Text.Blank
import Roster.Text.Comment
import Roster.Text.Lines

/-!
# Unbroken text

A text without blank characters passes unharmed through everything that takes a
plain text apart: it is a single word, no line ends inside it, and a comment
starts in it only at its very beginning.
-/

namespace Roster.Text

/-- A visible character is none of the blank ones. -/
theorem ne_of_blank {c : Char} (visible : isBlank c = false) (blank : Char)
    (isBlank : isBlank blank = true) : c ≠ blank := by
  rintro rfl
  rw [visible] at isBlank
  cases isBlank

/-- A text in which no blank character occurs. -/
def Unbroken (text : List Char) : Prop :=
  ∀ c ∈ text, isBlank c = false

theorem unbroken_iff {text : List Char} :
    Unbroken text ↔ text.all (fun c => !isBlank c) = true := by
  simp [Unbroken]

theorem Unbroken.head {c : Char} {rest : List Char} (unbroken : Unbroken (c :: rest)) :
    isBlank c = false :=
  unbroken c List.mem_cons_self

theorem Unbroken.tail {c : Char} {rest : List Char} (unbroken : Unbroken (c :: rest)) :
    Unbroken rest :=
  fun other member => unbroken other (List.mem_cons_of_mem _ member)

/-- A character that ends a line is blank. -/
theorem isBlank_of_endsLine {c : Char} (ends : endsLine c = true) : isBlank c = true := by
  simp only [endsLine, isBlank, Bool.or_eq_true, Bool.and_eq_true, decide_eq_true_eq,
    beq_iff_eq] at ends ⊢
  omega

/-- No line ends inside an unbroken text. -/
theorem Unbroken.not_endsLine {text : List Char} (unbroken : Unbroken text) :
    ∀ c ∈ text, endsLine c = false := by
  intro c member
  rw [Bool.eq_false_iff]
  intro ends
  have blank := isBlank_of_endsLine ends
  rw [unbroken c member] at blank
  cases blank

/-- An unbroken text is a single word. -/
theorem words_of_unbroken {text : List Char} (nonempty : text ≠ []) (unbroken : Unbroken text) :
    words text = [text] := by
  induction text with
  | nil => exact absurd rfl nonempty
  | cons c rest inductionHypothesis =>
      cases rest with
      | nil => simp [words, unbroken.head, startsWord]
      | cons d others =>
          have starts : startsWord (d :: others) = true := by
            simp [startsWord, unbroken.tail.head]
          rw [words, unbroken.head, starts, inductionHypothesis (by simp) unbroken.tail]
          rfl

/-- The first line of a text, up to the character that ends it. -/
theorem lines_append {line : List Char} (inside : ∀ c ∈ line, endsLine c = false) {c : Char}
    (ends : endsLine c = true) (rest : List Char) :
    lines (line ++ c :: rest) = line :: lines rest := by
  induction line with
  | nil => simp [lines, ends]
  | cons d others inductionHypothesis =>
      have goesOn : endsLine d = false := inside d List.mem_cons_self
      rw [List.cons_append, lines, goesOn,
        inductionHypothesis fun e member => inside e (List.mem_cons_of_mem _ member)]
      rfl

/-- Behind a character that is not blank no comment starts in an unbroken text. -/
theorem cutCommentAfter_of_unbroken {previous : Char} (visible : isBlank previous = false)
    {text : List Char} (unbroken : Unbroken text) :
    cutCommentAfter (some previous) text = text := by
  induction text generalizing previous with
  | nil => rfl
  | cons c rest inductionHypothesis =>
      have goesOn : startsComment (some previous) c = false := by
        simp [startsComment, visible]
      rw [cutCommentAfter, goesOn, inductionHypothesis unbroken.head unbroken.tail]
      rfl

/-- A comment starts in an unbroken text only at its beginning. -/
theorem cutComment_of_unbroken {c : Char} {rest : List Char} (unbroken : Unbroken (c :: rest)) :
    cutComment (c :: rest) = if c = '#' then [] else c :: rest := by
  unfold cutComment
  rw [cutCommentAfter, cutCommentAfter_of_unbroken unbroken.head unbroken.tail]
  by_cases sign : c = '#'
  · simp [startsComment, sign]
  · simp [startsComment, sign]

end Roster.Text
