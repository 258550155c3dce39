import Roster.Text.Blank

/-!
# Comments

A comment begins with a number sign at the start of a line or behind a blank
character, and goes on to the end of the line. A number sign inside a word is a
part of the word.
-/

namespace Roster.Text

/-- Whether a comment starts with a character behind another, which is missing at
the start of a line. -/
def startsComment (previous : Option Char) (c : Char) : Bool :=
  c == '#' && previous.all isBlank

/-- The part of a line in front of its comment, behind a character. -/
def cutCommentAfter (previous : Option Char) : List Char -> List Char
  | [] => []
  | c :: rest =>
    if startsComment previous c then [] else c :: cutCommentAfter (some c) rest

/-- The part of a line in front of its comment. -/
def cutComment (line : List Char) : List Char :=
  cutCommentAfter none line

/-- Cutting leaves the beginning of the line. -/
theorem cutCommentAfter_isPrefix (previous : Option Char) (line : List Char) :
    cutCommentAfter previous line <+: line := by
  induction line generalizing previous with
  | nil => exact List.nil_prefix
  | cons c rest inductionHypothesis =>
      simp only [cutCommentAfter]
      split
      · exact List.nil_prefix
      · exact List.cons_prefix_cons.2 ⟨rfl, inductionHypothesis (some c)⟩

end Roster.Text
