/-!
# Lines and pieces

Two rules about line ends. `unifyNewlines` maps the three customary newlines to
one; `lines` then cuts a text at every character that ends a line, of which there
are more than the newline. `pieces` cuts a text at every occurrence of one character,
and drops nothing else: empty pieces count.
-/

namespace Roster.Text

/-- Writes a carriage return, alone or in front of a newline, as one newline. -/
def unifyNewlines : List Char -> List Char
  | [] => []
  | '\r' :: '\n' :: rest => '\n' :: unifyNewlines rest
  | c :: rest => (if c = '\r' then '\n' else c) :: unifyNewlines rest

/-- The characters that end a line once newlines are unified: newline, vertical
tab, form feed, the separators U+001C to U+001E, next line, and the Unicode line
and paragraph separators. -/
def endsLine (c : Char) : Bool :=
  let code := c.toNat
  (0x0A <= code && code <= 0x0D) || (0x1C <= code && code <= 0x1E) || code == 0x85 ||
    code == 0x2028 || code == 0x2029

/-- The lines of a text without their ends. Text after the last line end is a
line only if it is not empty. -/
def lines : List Char -> List (List Char)
  | [] => []
  | c :: rest =>
    if endsLine c then [] :: lines rest
    else
      match lines rest with
      | [] => [[c]]
      | line :: others => (c :: line) :: others

/-- A text without carriage returns has unified newlines already. -/
theorem unifyNewlines_of_not_mem {text : List Char} (absent : '\r' ∉ text) :
    unifyNewlines text = text := by
  fun_induction unifyNewlines text with
  | case1 => rfl
  | case2 rest => simp at absent
  | case3 c rest _ inductionHypothesis =>
      have other : c ≠ '\r' := fun same => absent (same ▸ List.mem_cons_self)
      have tail : '\r' ∉ rest := fun member => absent (List.mem_cons_of_mem _ member)
      simp [other, inductionHypothesis tail]

/-- The pieces of a text between occurrences of a character. -/
def pieces (separator : Char) : List Char -> List (List Char)
  | [] => [[]]
  | c :: rest =>
    if c = separator then [] :: pieces separator rest
    else
      match pieces separator rest with
      | [] => [[c]]
      | piece :: others => (c :: piece) :: others

/-- There is always a piece. -/
theorem pieces_ne_nil (separator : Char) (text : List Char) : pieces separator text ≠ [] := by
  cases text with
  | nil => simp [pieces]
  | cons c rest =>
      by_cases same : c = separator
      · simp [pieces, same]
      · cases found : pieces separator rest <;> simp [pieces, same, found]

end Roster.Text
