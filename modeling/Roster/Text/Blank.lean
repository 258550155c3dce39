/-!
# Blank characters and words

A descriptor may hold any character but a blank one. This module fixes the class
of blank characters and cuts a text into its words, the maximal runs of
characters that are not blank.
-/

namespace Roster.Text

/-- The blank characters: the white space of Unicode together with the four
ASCII separators U+001C to U+001F. -/
def isBlank (c : Char) : Bool :=
  let code := c.toNat
  (0x09 <= code && code <= 0x0D) || (0x1C <= code && code <= 0x20) || code == 0x85 ||
    code == 0xA0 || code == 0x1680 || (0x2000 <= code && code <= 0x200A) ||
    code == 0x2028 || code == 0x2029 || code == 0x202F || code == 0x205F || code == 0x3000

/-- Whether a text begins inside a word. -/
def startsWord (text : List Char) : Bool :=
  text.head?.any fun c => !isBlank c

/-- The words of a text in order: a character that is not blank opens a word,
or joins the word that follows it directly. -/
def words : List Char -> List (List Char)
  | [] => []
  | c :: rest =>
    if isBlank c then words rest
    else if startsWord rest then
      match words rest with
      | [] => [[c]]
      | word :: others => (c :: word) :: others
    else [c] :: words rest

/-- No text, no word. -/
@[simp] theorem words_nil : words [] = [] := rfl

/-- A blank character belongs to no word. -/
theorem words_cons_of_blank {c : Char} (blank : isBlank c = true) (rest : List Char) :
    words (c :: rest) = words rest := by
  simp [words, blank]

end Roster.Text
