import Mathlib.Data.List.Basic

/-!
# Texts in which lines are cut

What is left of a text if some of its lines are cut at their end. A space may stand for
what is lost, and the first characters of a line are never lost.
-/

namespace Roster.Text

/-- The number of characters at the beginning of a line that are not lost. -/
def safeColumns : Nat := 8

/-- A text, seen from a column of its first line, and what is left of it if lines are cut. -/
inductive Cropped : Nat → List Char → List Char → Prop where
  | nil (column : Nat) : Cropped column [] []
  | newline (column : Nat) {whole shown : List Char} (behind : Cropped 0 whole shown) :
      Cropped column ('\n' :: whole) ('\n' :: shown)
  | keep {column : Nat} {c : Char} {whole shown : List Char} (inside : c ≠ '\n')
      (behind : Cropped (column + 1) whole shown) : Cropped column (c :: whole) (c :: shown)
  | cut {column : Nat} {lost space whole shown : List Char} (enough : safeColumns ≤ column)
      (isCut : lost ≠ []) (inside : '\n' ∉ lost) (blank : space = [] ∨ space = [' '])
      (behind : Cropped 0 whole shown) :
      Cropped column (lost ++ '\n' :: whole) (space ++ '\n' :: shown)

/-- Characters without a newline in front of a text stand in front of its first newline. -/
theorem exists_of_append_newline {front text more after : List Char} (inside : '\n' ∉ front)
    (same : front ++ text = more ++ '\n' :: after) :
    ∃ others, more = front ++ others ∧ text = others ++ '\n' :: after := by
  induction front generalizing more with
  | nil => exact ⟨more, rfl, same⟩
  | cons c front inductionHypothesis =>
      rw [List.mem_cons, not_or] at inside
      cases more with
      | nil => exact absurd (List.cons.inj same).1.symm inside.1
      | cons d more =>
          obtain ⟨rfl, behind⟩ := List.cons.inj same
          obtain ⟨others, rfl, isText⟩ := inductionHypothesis inside.2 behind
          exact ⟨others, rfl, isText⟩

/-- In front of a newline that comes first there is nothing. -/
theorem eq_of_newline_eq {text others after : List Char} (noNewline : '\n' ∉ others)
    (same : '\n' :: text = others ++ '\n' :: after) : others = [] ∧ after = text := by
  cases others with
  | nil => exact ⟨rfl, (List.cons.inj same).2.symm⟩
  | cons c others =>
      obtain ⟨rfl, -⟩ := List.cons.inj same
      exact absurd List.mem_cons_self noNewline

/-- A line from some column on that is cut, and what is left of it and of the lines behind. -/
structure CutAfter (column : Nat) (kept lost whole shown : List Char) : Prop where
  isCut : lost ≠ []
  enough : safeColumns ≤ column + kept.length
  left : ∃ space behind, (space = [] ∨ space = [' ']) ∧ shown = kept ++ (space ++ '\n' :: behind) ∧
    Cropped 0 whole behind

namespace Cropped

variable {column : Nat} {front whole shown : List Char}

/-- Nothing is shown that is not in the text, but for spaces. -/
theorem mem_or_eq_space (cropped : Cropped column whole shown) {c : Char} (member : c ∈ shown) :
    c ∈ whole ∨ c = ' ' := by
  induction cropped with
  | nil => exact .inl member
  | newline _ _ inductionHypothesis =>
      rcases List.mem_cons.1 member with rfl | behind
      · exact .inl List.mem_cons_self
      · exact (inductionHypothesis behind).imp_left (List.mem_cons_of_mem _)
  | keep _ _ inductionHypothesis =>
      rcases List.mem_cons.1 member with rfl | behind
      · exact .inl List.mem_cons_self
      · exact (inductionHypothesis behind).imp_left (List.mem_cons_of_mem _)
  | cut _ _ _ blank _ inductionHypothesis =>
      rcases List.mem_append.1 member with inSpace | inRest
      · rcases blank with rfl | rfl
        · cases inSpace
        · exact .inr (List.mem_singleton.1 inSpace)
      · rcases List.mem_cons.1 inRest with rfl | behind
        · exact .inl (List.mem_append_right _ List.mem_cons_self)
        · exact (inductionHypothesis behind).imp_left fun inWhole =>
            List.mem_append_right _ (List.mem_cons_of_mem _ inWhole)

theorem eq_nil (cropped : Cropped column [] shown) : shown = [] := by
  generalize none : ([] : List Char) = whole at cropped
  cases cropped with
  | nil => rfl
  | newline => cases none
  | keep => cases none
  | cut => simp at none

/-- A text begins as it is, unless its first character is far along a line. -/
theorem head?_eq (early : column < safeColumns) (cropped : Cropped column whole shown) :
    shown.head? = whole.head? := by
  cases cropped with
  | nil => rfl
  | newline => rfl
  | keep => rfl
  | cut enough => exact absurd enough (Nat.not_le.2 early)

/-- A line that ends is not cut. -/
theorem exists_newline (cropped : Cropped column ('\n' :: whole) shown) :
    ∃ behind, shown = '\n' :: behind ∧ Cropped 0 whole behind := by
  generalize same : '\n' :: whole = text at cropped
  cases cropped with
  | nil => cases same
  | newline _ behind =>
      obtain ⟨-, rfl⟩ := List.cons.inj same
      exact ⟨_, rfl, behind⟩
  | keep inside =>
      obtain ⟨rfl, -⟩ := List.cons.inj same
      exact absurd rfl inside
  | @cut _ lost _ _ _ _ isCut inside =>
      obtain ⟨c, others, rfl⟩ := List.exists_cons_of_ne_nil isCut
      obtain ⟨rfl, -⟩ := List.cons.inj same
      exact absurd List.mem_cons_self inside

/-- Characters in a line are either all kept, or the line is cut among them. -/
theorem split (inside : '\n' ∉ front) (cropped : Cropped column (front ++ whole) shown) :
    (∃ behind, shown = front ++ behind ∧ Cropped (column + front.length) whole behind) ∨
      ∃ kept lost more after, front = kept ++ lost ∧ lost ≠ [] ∧
        whole = more ++ '\n' :: after ∧ '\n' ∉ more ∧
        CutAfter column kept (lost ++ more) after shown := by
  induction front generalizing column shown with
  | nil => exact .inl ⟨shown, rfl, cropped⟩
  | cons c others inductionHypothesis =>
      rw [List.mem_cons, not_or] at inside
      generalize same : c :: others ++ whole = text at cropped
      cases cropped with
      | nil => cases same
      | newline =>
          obtain ⟨rfl, -⟩ := List.cons.inj same
          exact absurd rfl inside.1
      | keep _ cropped =>
          obtain ⟨rfl, rfl⟩ := List.cons.inj same
          rcases inductionHypothesis inside.2 cropped with
            ⟨behind, rfl, rest⟩ | ⟨kept, lost, more, after, rfl, isCut, rfl, noNewline, cutAfter⟩
          · refine .inl ⟨behind, rfl, ?_⟩
            rwa [List.length_cons, Nat.add_comm others.length, ← Nat.add_assoc]
          · obtain ⟨stillCut, enough, space, behind, blank, rfl, rest⟩ := cutAfter
            refine .inr ⟨c :: kept, lost, more, after, rfl, isCut, rfl, noNewline, stillCut, ?_,
              space, behind, blank, rfl, rest⟩
            rw [List.length_cons]
            omega
      | @cut _ lost space after behind enough isCut noNewline blank cropped =>
          -- All that is in front of the newline is lost, so the characters in question are.
          have clean : '\n' ∉ c :: others := by
            rw [List.mem_cons, not_or]
            exact inside
          obtain ⟨more, rfl, rfl⟩ := exists_of_append_newline clean same
          rw [List.mem_append, not_or] at noNewline
          exact .inr ⟨[], c :: others, more, after, rfl, List.cons_ne_nil _ _, rfl, noNewline.2,
            isCut, enough, space, behind, blank, rfl, cropped⟩

/-- A character in a line is kept, or the line is cut in front of it. -/
theorem head_cases {c : Char} (inside : c ≠ '\n') (cropped : Cropped column (c :: whole) shown) :
    (∃ behind, shown = c :: behind ∧ Cropped (column + 1) whole behind) ∨
      ∃ space behind, (space = [] ∨ space = [' ']) ∧ shown = space ++ '\n' :: behind := by
  rcases cropped.split (show '\n' ∉ [c] by simpa using Ne.symm inside) with
    kept | ⟨kept, lost, more, after, same, isCut, -, -, cutAfter⟩
  · exact .inl kept
  · have none : kept = [] := by
      have length := congrArg List.length same
      have positive := List.length_pos_iff.2 isCut
      rw [List.length_append, List.length_singleton] at length
      exact List.length_eq_zero_iff.1 (by omega)
    obtain ⟨space, behind, blank, rfl, -⟩ := cutAfter.left
    exact .inr ⟨space, behind, blank, by rw [none, List.nil_append]⟩

/-- The first characters of a line are kept. -/
theorem exists_front (inside : '\n' ∉ front) (early : column + front.length ≤ safeColumns)
    (cropped : Cropped column (front ++ whole) shown) :
    ∃ behind, shown = front ++ behind ∧ Cropped (column + front.length) whole behind := by
  refine (cropped.split inside).resolve_right ?_
  rintro ⟨kept, lost, more, after, rfl, isCut, -, -, cutAfter⟩
  have enough := cutAfter.enough
  have positive := List.length_pos_iff.2 isCut
  rw [List.length_append] at early
  omega

/-- A line is either kept or cut. -/
theorem line_cases (inside : '\n' ∉ front)
    (cropped : Cropped column (front ++ '\n' :: whole) shown) :
    (∃ behind, shown = front ++ '\n' :: behind ∧ Cropped 0 whole behind) ∨
      ∃ kept lost, front = kept ++ lost ∧ CutAfter column kept lost whole shown := by
  rcases cropped.split inside with
    ⟨behind, rfl, ends⟩ | ⟨kept, lost, more, after, rfl, isCut, same, noNewline, cutAfter⟩
  · obtain ⟨behind, rfl, rest⟩ := ends.exists_newline
    exact .inl ⟨behind, rfl, rest⟩
  · obtain ⟨rfl, rfl⟩ := eq_of_newline_eq noNewline same
    rw [List.append_nil] at cutAfter
    exact .inr ⟨kept, lost, rfl, cutAfter⟩

/-- Characters of a line may be put in front of what is left of a text. -/
theorem append (inside : '\n' ∉ front) (cropped : Cropped (column + front.length) whole shown) :
    Cropped column (front ++ whole) (front ++ shown) := by
  induction front generalizing column with
  | nil => exact cropped
  | cons c others inductionHypothesis =>
      rw [List.mem_cons, not_or] at inside
      rw [List.length_cons, Nat.add_comm others.length, ← Nat.add_assoc] at cropped
      exact .keep (Ne.symm inside.1) (inductionHypothesis inside.2 cropped)

end Cropped

end Roster.Text
