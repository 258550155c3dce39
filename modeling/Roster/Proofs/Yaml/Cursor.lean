import Roster.Yaml.Mark

/-!
# Moving through a text

Reading moves a cursor along the text. The mark behind a text is the mark in front
of it moved over every character in turn; of such a mark only its line, its index
and, behind a newline, its column are ever needed.
-/

namespace Roster.Yaml

namespace Mark

/-- The place behind a text. -/
def behind (mark : Mark) (text : List Char) : Mark :=
  text.foldl after mark

@[simp] theorem behind_nil (mark : Mark) : mark.behind [] = mark := rfl

@[simp] theorem behind_cons (mark : Mark) (c : Char) (text : List Char) :
    mark.behind (c :: text) = (mark.after c).behind text := rfl

/-- Behind two texts is behind the second one from behind the first. -/
theorem behind_append (mark : Mark) (first second : List Char) :
    mark.behind (first ++ second) = (mark.behind first).behind second :=
  List.foldl_append

theorem index_after (mark : Mark) (c : Char) : (mark.after c).index = mark.index + 1 := by
  unfold after
  split
  · rfl
  · split <;> rfl

/-- Every character counts for the index. -/
theorem index_behind (mark : Mark) (text : List Char) :
    (mark.behind text).index = mark.index + text.length := by
  induction text generalizing mark with
  | nil => rfl
  | cons c rest inductionHypothesis =>
      rw [behind_cons, inductionHypothesis, index_after, List.length_cons]
      omega

/-- Only newlines count for the line. -/
theorem line_behind (mark : Mark) (text : List Char) :
    (mark.behind text).line = mark.line + text.count '\n' := by
  induction text generalizing mark with
  | nil => rfl
  | cons c rest inductionHypothesis =>
      rw [behind_cons, inductionHypothesis]
      by_cases newline : c = '\n'
      · simp [after, newline]
        omega
      · have sameLine : (mark.after c).line = mark.line := by
          simp only [after, if_neg newline]
          split <;> rfl
        rw [sameLine, List.count_cons_of_ne newline]

/-- A newline further on is on another line. -/
theorem line_lt_line_behind (mark : Mark) {text : List Char} (newline : '\n' ∈ text) :
    mark.line < (mark.behind text).line := by
  have positive := List.count_pos_iff.2 newline
  rw [line_behind]
  omega

theorem column_after_space (mark : Mark) : (mark.after ' ').column = mark.column + 1 := by
  simp [after]

/-- Every space counts for the column. -/
theorem column_behind_spaces (mark : Mark) (count : Nat) :
    (mark.behind (List.replicate count ' ')).column = mark.column + count := by
  induction count generalizing mark with
  | zero => rfl
  | succ count inductionHypothesis =>
      rw [List.replicate_succ, behind_cons, inductionHypothesis, column_after_space]
      omega

/-- In a line, every character but a byte order mark counts for the column. -/
theorem column_behind_word (mark : Mark) {text : List Char} (noNewline : '\n' ∉ text)
    (noMark : '\ufeff' ∉ text) : (mark.behind text).column = mark.column + text.length := by
  induction text generalizing mark with
  | nil => rfl
  | cons c rest inductionHypothesis =>
      rw [List.mem_cons, not_or] at noNewline noMark
      rw [behind_cons, inductionHypothesis (mark.after c) noNewline.2 noMark.2, List.length_cons]
      simp only [after, if_neg (Ne.symm noNewline.1), if_neg (Ne.symm noMark.1)]
      omega

/-- Behind a newline and spaces, the column is the number of the spaces. -/
theorem column_behind_newline (mark : Mark) (text : List Char) (count : Nat) :
    (mark.behind (text ++ '\n' :: List.replicate count ' ')).column = count := by
  rw [behind_append, behind_cons, column_behind_spaces]
  simp [after]

end Mark

namespace Cursor

@[simp] theorem peek_cons (mark : Mark) (c : Char) (rest : List Char) :
    peek ⟨mark, c :: rest⟩ = c := rfl

@[simp] theorem advance_cons (mark : Mark) (c : Char) (rest : List Char) :
    advance ⟨mark, c :: rest⟩ = ⟨mark.after c, rest⟩ := rfl

section Rest

variable {cursor : Cursor} {c : Char} {rest : List Char}

/-- The next character is the first one of those that are left. -/
theorem peek_of_rest (rest_eq : cursor.rest = c :: rest) : cursor.peek = c := by
  rw [peek, rest_eq]
  rfl

/-- There is no marker where another character is next. -/
theorem atMarker_of_rest (rest_eq : cursor.rest = c :: rest) {sign : Char} (differs : c ≠ sign) :
    cursor.atMarker sign = false := by
  have first : cursor.peekAt 0 = c := by
    rw [peekAt, rest_eq]
    rfl
  simp [atMarker, first, differs]

/-- Skipping the next character leaves the others. -/
theorem skip_of_rest (rest_eq : cursor.rest = c :: rest) :
    cursor.skip 1 = ⟨cursor.mark.after c, rest⟩ := by
  rw [skip, advance, rest_eq]
  rfl

end Rest

/-- Skipping a text of a known length. -/
theorem skip_append (mark : Mark) (text rest : List Char) :
    skip ⟨mark, text ++ rest⟩ text.length = ⟨mark.behind text, rest⟩ := by
  induction text generalizing mark with
  | nil => rfl
  | cons c others inductionHypothesis =>
      rw [List.length_cons, skip]
      exact inductionHypothesis (mark.after c)

/-- A run of characters in a class, up to a character that is not in it or to the
end. -/
theorem takeWhile_append {inClass : Char → Bool} (mark : Mark) {text rest : List Char}
    (inside : ∀ c ∈ text, inClass c = true) (stops : ∀ c ∈ rest.head?, inClass c = false) :
    takeWhile ⟨mark, text ++ rest⟩ inClass = (text, ⟨mark.behind text, rest⟩) := by
  unfold takeWhile
  induction text generalizing mark with
  | nil =>
      cases rest with
      | nil => rfl
      | cons c others =>
          have outside : inClass c = false := stops c rfl
          simp [takeWhile.go, outside]
  | cons c others inductionHypothesis =>
      have goesOn : inClass c = true := inside c List.mem_cons_self
      have tail := inductionHypothesis (mark.after c)
        fun d member => inside d (List.mem_cons_of_mem _ member)
      simp only [List.cons_append, takeWhile.go, goesOn, if_true]
      rw [tail]
      rfl

/-- Skipping a run of characters in a class. -/
theorem skipWhile_append {inClass : Char → Bool} (mark : Mark) (text : List Char)
    {rest : List Char}
    (inside : ∀ c ∈ text, inClass c = true) (stops : ∀ c ∈ rest.head?, inClass c = false) :
    skipWhile ⟨mark, text ++ rest⟩ inClass = ⟨mark.behind text, rest⟩ := by
  rw [skipWhile, takeWhile_append mark inside stops]

/-- Nothing is taken in front of a character outside the class. -/
theorem takeWhile_of_stop (inClass : Char → Bool) (mark : Mark) (rest : List Char)
    (stops : ∀ c ∈ rest.head?, inClass c = false) :
    takeWhile ⟨mark, rest⟩ inClass = ([], ⟨mark, rest⟩) :=
  takeWhile_append mark (List.forall_mem_nil _) stops

end Cursor

end Roster.Yaml
