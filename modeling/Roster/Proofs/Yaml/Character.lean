import Roster.Proofs.Text.Unbroken
import Roster.Yaml.Character

/-!
# Visible characters

A character that is not blank lies in none of the classes of white space, and
unless it shows the end of the text it ends nothing.
-/

namespace Roster.Yaml

variable {c : Char}

/-- Neither a space nor a tab is visible. -/
theorem isSpaceOrTab_of_visible (visible : Text.isBlank c = false) : isSpaceOrTab c = false := by
  have space := Text.ne_of_blank visible ' ' rfl
  have tab := Text.ne_of_blank visible '\t' rfl
  simp [isSpaceOrTab, space, tab]

/-- No line break is visible. -/
theorem isBreak_of_visible (visible : Text.isBlank c = false) : isBreak c = false := by
  have newline := Text.ne_of_blank visible '\n' rfl
  have return' := Text.ne_of_blank visible '\r' rfl
  have nextLine := Text.ne_of_blank visible '\x85' rfl
  have line := Text.ne_of_blank visible '\u2028' rfl
  have paragraph := Text.ne_of_blank visible '\u2029' rfl
  simp [isBreak, newline, return', nextLine, line, paragraph]

/-- A visible character inside a text is no line break and not the end. -/
theorem isBreakOrEnd_of_visible (visible : Text.isBlank c = false) (inside : c ≠ endOfText) :
    isBreakOrEnd c = false := by
  simp [isBreakOrEnd, isBreak_of_visible visible, inside]

/-- A visible character inside a text is no white space and not the end. -/
theorem isSeparation_of_visible (visible : Text.isBlank c = false) (inside : c ≠ endOfText) :
    isSeparation c = false := by
  have space := Text.ne_of_blank visible ' ' rfl
  have tab := Text.ne_of_blank visible '\t' rfl
  simp [isSeparation, isSpaceOrEnd, isBreakOrEnd_of_visible visible inside, space, tab]

/-- A visible character inside a text sets off no indicator. -/
theorem endsIndicator_of_visible (visible : Text.isBlank c = false) (inside : c ≠ endOfText) :
    endsIndicator c = false := by
  have newline := Text.ne_of_blank visible '\n' rfl
  have return' := Text.ne_of_blank visible '\r' rfl
  have nextLine := Text.ne_of_blank visible '\x85' rfl
  simp [endsIndicator, endsContent, isSpaceOrTab_of_visible visible, newline, return', nextLine,
    inside]

end Roster.Yaml
