import Roster.Proofs.Outcome
import Roster.Proofs.Yaml.Quoted

/-!
# Quoted scalars over several lines

Reading a quoted scalar never leads back to an earlier line. Where a line ends inside of
one, the scalar ends on a later line than it begins, and unless the line ends behind a
backslash the scalar holds a blank character there.
-/

namespace Roster.Yaml

open Roster.Text (CodePoint Unbroken)

theorem Mark.line_le_after (mark : Mark) (c : Char) : mark.line ≤ (mark.after c).line := by
  unfold after
  split
  · exact Nat.le_succ _
  · split <;> exact Nat.le_refl _

theorem Mark.line_le_behind (mark : Mark) (text : List Char) :
    mark.line ≤ (mark.behind text).line := by
  rw [Mark.line_behind]
  exact Nat.le_add_right ..

namespace Cursor

theorem line_le_advance (cursor : Cursor) : cursor.mark.line ≤ cursor.advance.mark.line := by
  unfold advance
  split
  · exact Nat.le_refl _
  · exact Mark.line_le_after ..

theorem line_le_skip (cursor : Cursor) (count : Nat) :
    cursor.mark.line ≤ (cursor.skip count).mark.line := by
  induction count generalizing cursor with
  | zero => exact Nat.le_refl _
  | succ count inductionHypothesis =>
      exact Nat.le_trans cursor.line_le_advance (inductionHypothesis cursor.advance)

theorem line_le_takeWhile (cursor : Cursor) (inClass : Char → Bool) :
    cursor.mark.line ≤ (cursor.takeWhile inClass).2.mark.line := by
  obtain ⟨mark, text⟩ := cursor
  unfold takeWhile
  induction text generalizing mark with
  | nil => exact Nat.le_refl _
  | cons c others inductionHypothesis =>
      rw [takeWhile.go]
      split
      · exact Nat.le_trans (mark.line_le_after c) (inductionHypothesis (mark.after c))
      · exact Nat.le_refl _

theorem line_le_lineBreak (cursor : Cursor) :
    cursor.mark.line ≤ cursor.lineBreak.2.mark.line := by
  simp only [lineBreak]
  split
  · exact cursor.line_le_skip 2
  · split
    · exact cursor.line_le_advance
    · split
      · exact cursor.line_le_advance
      · exact Nat.le_refl _

end Cursor

namespace Token

variable {since : Mark} {fuel : Nat} {cursor : Cursor}

/-- What is read of a scalar does not end in front of a line. -/
def EndsFrom {α : Type} (line : Nat) (read : α × Cursor) : Prop :=
  line ≤ read.2.mark.line

theorem gives_quotedBreaks (since : Mark) (fuel : Nat) (cursor : Cursor) :
    Gives (quotedBreaks since fuel cursor) (EndsFrom cursor.mark.line) := by
  induction fuel generalizing cursor with
  | zero => exact Gives.ok (Nat.le_refl _)
  | succ fuel inductionHypothesis =>
      have skipped := cursor.line_le_takeWhile isSpaceOrTab
      rw [quotedBreaks]
      split
      · exact Gives.error _ _
      · dsimp only
        split
        · refine Gives.bind (inductionHypothesis _) fun read ends => Gives.ok ?_
          exact Nat.le_trans skipped (Nat.le_trans (Cursor.line_le_lineBreak _) ends)
        · exact Gives.ok skipped

theorem gives_quotedSpace (since : Mark) (cursor : Cursor) :
    Gives (quotedSpace since cursor) (EndsFrom cursor.mark.line) := by
  have skipped := cursor.line_le_takeWhile isSpaceOrTab
  simp only [quotedSpace]
  split
  · exact Gives.error _ _
  · split
    · refine Gives.bind (gives_quotedBreaks since _ _) fun read ends => Gives.ok ?_
      exact Nat.le_trans skipped (Nat.le_trans (Cursor.line_le_lineBreak _) ends)
    · exact Gives.ok skipped

theorem gives_escape (since : Mark) (cursor : Cursor) :
    Gives (escape since cursor) (EndsFrom cursor.mark.line) := by
  simp only [escape]
  split
  · exact Gives.ok cursor.line_le_advance
  · split
    · exact Gives.error _ _
    · refine Gives.bind_any fun character => Gives.ok ?_
      exact Nat.le_trans cursor.line_le_advance (Cursor.line_le_skip ..)
  · split
    · refine Gives.bind (gives_quotedBreaks since _ _) fun read ends => Gives.ok ?_
      exact Nat.le_trans cursor.line_le_lineBreak ends
    · exact Gives.error _ _

/-- Reading the content of a quoted scalar never leads back to an earlier line. -/
theorem gives_quotedContent (style : QuoteStyle) (since : Mark) (fuel : Nat) (cursor : Cursor) :
    Gives (quotedContent style since fuel cursor) (EndsFrom cursor.mark.line) := by
  induction fuel generalizing cursor with
  | zero => exact Gives.ok (Nat.le_refl _)
  | succ fuel inductionHypothesis =>
      have goesOn : ∀ (part : List CodePoint) (next : Cursor), cursor.mark.line ≤ next.mark.line →
          Gives (quotedContent style since fuel next >>= fun others =>
            .ok (part ++ others.1, others.2)) (EndsFrom cursor.mark.line) := fun part next further =>
        Gives.bind (inductionHypothesis next) fun _ ends => Gives.ok (Nat.le_trans further ends)
      rw [quotedContent]
      dsimp only
      split
      · exact Gives.ok cursor.line_le_advance
      · split
        · exact goesOn _ _ (cursor.line_le_skip 2)
        · split
          · exact Gives.bind (gives_escape since cursor.advance) fun read ends =>
              goesOn _ _ (Nat.le_trans cursor.line_le_advance ends)
          · split
            · exact Gives.bind (gives_quotedSpace since cursor) fun read ends => goesOn _ _ ends
            · exact goesOn _ _ cursor.line_le_advance

/-- A text holds a blank character. -/
def IsBroken (codes : List CodePoint) : Prop :=
  ∃ code ∈ codes, code.isBlank = true

/-- A blank character breaks a text. -/
theorem isBroken_of_mem {text : List Char} {c : Char} (member : c ∈ text)
    (blank : Text.isBlank c = true) : IsBroken (text.map .char) :=
  ⟨.char c, List.mem_map_of_mem member, blank⟩

/-- A text without blanks is not broken. -/
theorem not_isBroken {text : List Char} (unbroken : Unbroken text) :
    ¬IsBroken (text.map .char) := by
  rintro ⟨code, member, blank⟩
  obtain ⟨c, isMember, rfl⟩ := List.mem_map.1 member
  cases (unbroken c isMember).symm.trans blank

theorem isBlank_of_isBreak {c : Char} (isBreak : isBreak c = true) : Text.isBlank c = true := by
  simp only [Yaml.isBreak, Bool.or_eq_true, beq_iff_eq] at isBreak
  rcases isBreak with (((rfl | rfl) | rfl) | rfl) | rfl <;> rfl

theorem isBlank_of_isSpaceOrTab {c : Char} (white : isSpaceOrTab c = true) :
    Text.isBlank c = true := by
  simp only [isSpaceOrTab, Bool.or_eq_true, beq_iff_eq] at white
  rcases white with rfl | rfl <;> rfl

/-- A line break stands for a single blank character. -/
theorem exists_lineBreak (isBreak : isBreak cursor.peek = true) :
    ∃ c, cursor.lineBreak.1 = [c] ∧ Text.isBlank c = true := by
  simp only [Yaml.isBreak, Bool.or_eq_true, beq_iff_eq] at isBreak
  simp only [Cursor.lineBreak]
  split
  · exact ⟨'\n', rfl, rfl⟩
  · split
    · exact ⟨'\n', rfl, rfl⟩
    · rename_i other
      simp only [Bool.or_eq_true, beq_iff_eq, not_or] at other
      rcases isBreak with (((same | same) | same) | same) | same
      · exact absurd same other.1.2
      · exact absurd same other.1.1
      · exact absurd same other.2
      · rw [same]
        exact ⟨_, rfl, rfl⟩
      · rw [same]
        exact ⟨_, rfl, rfl⟩

/-- Blank lines stand for blank characters. -/
theorem gives_blank_quotedBreaks (since : Mark) (fuel : Nat) (cursor : Cursor) :
    Gives (quotedBreaks since fuel cursor) fun read => ∀ c ∈ read.1, Text.isBlank c = true := by
  induction fuel generalizing cursor with
  | zero => exact Gives.ok (List.forall_mem_nil _)
  | succ fuel inductionHypothesis =>
      rw [quotedBreaks]
      split
      · exact Gives.error _ _
      · dsimp only
        split
        · rename_i isBreak
          obtain ⟨c, lineBreak, blank⟩ := exists_lineBreak isBreak
          refine Gives.bind (inductionHypothesis _) fun read blanks => Gives.ok ?_
          rw [lineBreak]
          exact List.forall_mem_cons.2 ⟨blank, blanks⟩
        · exact Gives.ok (List.forall_mem_nil _)

theorem isBroken_folded {c : Char} {blankLines : List Char} (blank : Text.isBlank c = true)
    (blanks : ∀ d ∈ blankLines, Text.isBlank d = true) :
    IsBroken ((folded [c] blankLines).map .char) := by
  rw [folded]
  split
  · exact isBroken_of_mem List.mem_cons_self blank
  · split
    · exact isBroken_of_mem (c := ' ') List.mem_cons_self rfl
    · rename_i notEmpty
      obtain ⟨d, others, rfl⟩ := List.exists_cons_of_ne_nil (by simpa using notEmpty)
      exact isBroken_of_mem List.mem_cons_self (blanks d List.mem_cons_self)

/-- White space between quotes stands for blank characters. -/
theorem gives_isBroken_quotedSpace {mark : Mark} {c : Char} {rest : List Char}
    (white : isSpaceOrTab c = true ∨ isBreak c = true) :
    Gives (quotedSpace since ⟨mark, c :: rest⟩) fun read => IsBroken (read.1.map .char) := by
  simp only [quotedSpace]
  split
  · exact Gives.error _ _
  · split
    · rename_i isBreak
      obtain ⟨d, lineBreak, blank⟩ := exists_lineBreak isBreak
      refine Gives.bind (gives_blank_quotedBreaks since _ _) fun read blanks => Gives.ok ?_
      rw [lineBreak]
      exact isBroken_folded blank blanks
    · rename_i noBreak
      refine Gives.ok (isBroken_of_mem (c := c) ?_
        (white.elim isBlank_of_isSpaceOrTab isBlank_of_isBreak))
      by_cases space : isSpaceOrTab c = true
      · simp [Cursor.takeWhile, Cursor.takeWhile.go, space]
      · simp [Cursor.takeWhile, Cursor.takeWhile.go, space, white.resolve_left space] at noBreak

/-- White space between quotes is read as such. -/
theorem quotedContent_space {style : QuoteStyle} {mark : Mark} {c : Char} {rest : List Char}
    (white : isSpaceOrTab c = true ∨ isBreak c = true) :
    quotedContent style since (fuel + 1) ⟨mark, c :: rest⟩ =
      quotedSpace since ⟨mark, c :: rest⟩ >>= fun part =>
        (quotedContent style since fuel part.2).map fun read =>
          (part.1.map .char ++ read.1, read.2) := by
  have blank := white.elim isBlank_of_isSpaceOrTab isBlank_of_isBreak
  have noMark : (c == style.mark) = false := by
    rw [beq_eq_false_iff_ne]
    rintro rfl
    cases style <;> cases blank
  have noEscape : (c == '\\') = false := by
    rw [beq_eq_false_iff_ne]
    rintro rfl
    cases blank
  have isWhite : (isSpaceOrTab c || isBreakOrEnd c) = true := by
    rcases white with space | isBreak
    · simp [space]
    · simp [isBreakOrEnd, isBreak]
  rw [quotedContent]
  simp only [Cursor.peek_cons, noMark, noEscape, isWhite, Bool.false_and, Bool.and_false,
    Bool.false_eq_true, if_false, if_true, pure_bind]
  refine bind_congr fun part => ?_
  cases quotedContent style since fuel part.2 <;> rfl

/-- A scalar with white space between its quotes is broken. -/
theorem gives_isBroken_quotedContent {style : QuoteStyle} {mark : Mark} {c : Char}
    {rest : List Char} (white : isSpaceOrTab c = true ∨ isBreak c = true) :
    Gives (quotedContent style since (fuel + 1) ⟨mark, c :: rest⟩) fun read =>
      IsBroken read.1 := by
  rw [quotedContent_space white]
  refine Gives.bind (gives_isBroken_quotedSpace white) fun part broken =>
    (gives_quotedContent style since fuel part.2).map fun others _ => ?_
  obtain ⟨d, member, blank⟩ := broken
  exact ⟨d, List.mem_append_left _ member, blank⟩

/-- Where a line ends between quotes, perhaps behind a space, the scalar is broken and ends
on a later line. -/
theorem gives_lineEnd_quotedContent {style : QuoteStyle} {space : List Char}
    (blank : space = [] ∨ space = [' ']) (mark : Mark) (rest : List Char) :
    Gives (quotedContent style since (fuel + 1) ⟨mark, space ++ '\n' :: rest⟩) fun read =>
      IsBroken read.1 ∧ EndsFrom (mark.line + 1) read := by
  have spaces : ∀ c ∈ space, isSpaceOrTab c = true := by
    rcases blank with rfl | rfl <;> simp [isSpaceOrTab]
  have taken := Cursor.takeWhile_append mark spaces
    (show ∀ c ∈ ('\n' :: rest).head?, isSpaceOrTab c = false by simp [isSpaceOrTab])
  have further : mark.line + 1 ≤ ((mark.behind space).after '\n').line := by
    have behind := Mark.line_lt_line_behind mark (show '\n' ∈ space ++ ['\n'] by simp)
    rw [Mark.behind_append] at behind
    exact behind
  have ends : Gives (quotedSpace since ⟨mark, space ++ '\n' :: rest⟩)
      (EndsFrom (mark.line + 1)) := by
    simp only [quotedSpace, taken]
    rw [if_neg (by simp), Cursor.peek_cons, if_pos (show isBreak '\n' = true from rfl)]
    exact Gives.bind (gives_quotedBreaks since _ _) fun read ends =>
      Gives.ok (Nat.le_trans further ends)
  have white : ∃ c others, space ++ '\n' :: rest = c :: others ∧
      (isSpaceOrTab c = true ∨ isBreak c = true) := by
    rcases blank with rfl | rfl
    · exact ⟨_, _, rfl, .inr rfl⟩
    · exact ⟨_, _, rfl, .inl rfl⟩
  obtain ⟨c, others, same, isWhite⟩ := white
  rw [same] at ends ⊢
  have later : Gives (quotedContent style since (fuel + 1) ⟨mark, c :: others⟩)
      (EndsFrom (mark.line + 1)) := by
    rw [quotedContent_space isWhite]
    exact Gives.bind ends fun part from' =>
      (gives_quotedContent style since fuel part.2).map fun _ behind => Nat.le_trans from' behind
  exact fun read whole =>
    ⟨gives_isBroken_quotedContent isWhite read whole, later read whole⟩

end Token

end Roster.Yaml
