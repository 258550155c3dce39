import Roster.Proofs.Terminal.ShownExport
import Roster.Proofs.Text.Cropped

/-!
# An export on the screen as a text with lines cut

What is shown of lines in which the terminal acts on no character is the lines, each of
them cut where it reaches the edge of the screen, far behind its first characters.
-/

namespace Roster.Terminal

open Roster.Text (Cropped safeColumns)

/-- A line that does not fit is cut behind its first characters. -/
theorem exists_shownLine_cut {line : List Char} (shown : ∀ c ∈ line, isSuppressed c = false)
    (exceeds : ¬FitsScreen line) :
    ∃ front lost space, line = front ++ lost ∧ lost ≠ [] ∧ safeColumns ≤ front.length ∧
      (space = [] ∨ space = [' ']) ∧ shownLine line = front ++ space := by
  have allShown : visible line = line :=
    List.filter_eq_self.2 fun c member => by simp [shown c member]
  have tooWide : screenWidth < cells line ∧ screenWidth < totalWidth (clusters line) := by
    rw [← Nat.not_le, ← Nat.not_le, ← not_or]
    exact fun within => exceeds ⟨shown, within⟩
  obtain ⟨front, cluster, behind, sound, split, long, cut⟩ := exists_clip tooWide.1 tooWide.2
  have enough : safeColumns ≤ front.length := by
    rw [screenWidth, widest] at long
    rw [safeColumns]
    omega
  have isCut : cluster.text ++ behind ≠ [] := fun none =>
    sound.nonempty (List.append_eq_nil_iff.1 none).1
  rw [shownLine, allShown]
  rcases cut with whole | ⟨-, marked⟩
  · exact ⟨front, _, [], split, isCut, enough, .inl rfl, by rw [whole, List.append_nil]⟩
  · exact ⟨front, _, [' '], split, isCut, enough, .inr rfl, marked⟩

/-- Lines are shown with some of them cut. -/
theorem cropped_shownLines {lines : List (List Char)} (clean : ∀ line ∈ lines, '\n' ∉ line)
    (shown : ∀ line ∈ lines, ∀ c ∈ line, isSuppressed c = false) :
    Cropped 0 (Text.ofLines lines) (shownLines lines) := by
  induction lines with
  | nil => exact .nil 0
  | cons line others inductionHypothesis =>
      obtain ⟨cleanLine, cleanOthers⟩ := List.forall_mem_cons.1 clean
      obtain ⟨shownHead, shownOthers⟩ := List.forall_mem_cons.1 shown
      have rest := inductionHypothesis cleanOthers shownOthers
      rw [shownLines] at rest ⊢
      rw [List.map_cons, Text.ofLines_cons, Text.ofLines_cons]
      by_cases fits : FitsScreen line
      · rw [shownLine_eq_self_iff.2 fits]
        exact Cropped.append cleanLine (.newline _ rest)
      · obtain ⟨front, lost, space, rfl, isCut, enough, blank, same⟩ :=
          exists_shownLine_cut shownHead fits
        rw [List.mem_append, not_or] at cleanLine
        rw [same, List.append_assoc, List.append_assoc]
        exact Cropped.append cleanLine.1 (.cut (by omega) isCut cleanLine.2 blank rest)

/-- An export in which the terminal acts on no character is shown with some of its lines cut. -/
theorem cropped_exportText {content : List Char} (endsOnce : EndsOnce content)
    (unmarked : content.head? ≠ some '\uFEFF') (shown : ∀ c ∈ content, isSuppressed c = false) :
    Cropped 0 content (exportText content).toList := by
  obtain ⟨body, rfl, ends⟩ := endsOnce
  have noMark : body.head? ≠ some '\uFEFF' := by
    cases body with
    | nil => simp
    | cons c rest => exact unmarked
  obtain ⟨lines, clean, whole, same⟩ := exists_lines_exportText ends noMark
  rw [whole] at shown
  rw [same, whole]
  refine cropped_shownLines clean fun line member c inside => shown c ?_
  exact List.mem_flatMap.2 ⟨line, member, List.mem_append_left _ inside⟩

end Roster.Terminal
