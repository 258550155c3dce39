import Roster.Text.Blank

/-!
# Emoji codes

A name between colons stands for a picture. The name holds no blank and no colon,
its case does not matter, and it may end in a wish for the coloured or the plain
form of the picture. What names no picture stays as it is, colons included, and
neither of its colons opens another code. Which names have pictures
changes from release to release, so their table is a parameter; a small one serves for
examples.
-/

namespace Roster.Terminal.Emoji

/-- Pictures by name. -/
abbrev Pictures := List Char -> Option (List Char)

/-- Some pictures with their names. -/
def named : List (String × Char) :=
  [("smile", '😄'), ("warning", '⚠'), ("a", '🅰'), ("b", '🅱'),
    ("o", '⭕'), ("x", '❌')]

/-- The pictures of the names above. -/
def known : Pictures := fun name =>
  (named.lookup (String.ofList (name.map Char.toLower))).map fun picture => [picture]

/-- The wishes for a form of a picture, each with its selector. -/
def forms : List (String × Char) :=
  [("-emoji", '\uFE0F'), ("-text", '\uFE0E')]

/-- What the text between two colons stands for: the wish for a form, if there is
one, is not part of the name. -/
def meaning? (pictures : Pictures) (code : List Char) : Option (List Char) :=
  match forms.find? fun form => form.1.toList.isSuffixOf code with
  | some (wish, selector) =>
    (pictures (code.take (code.length - wish.length))).map fun picture => picture ++ [selector]
  | none => pictures code

/-- What shows for the text between two colons. -/
def shown (pictures : Pictures) (code : List Char) : List Char :=
  (meaning? pictures code).getD (':' :: code ++ [':'])

/-- Expands the codes in a text. `code` is what was read since a colon that may
open a code, last character first. -/
def expandBehind (pictures : Pictures) : Option (List Char) -> List Char -> List Char
  | none, [] => []
  | some code, [] => ':' :: code.reverse
  | none, c :: rest =>
    if c = ':' then expandBehind pictures (some []) rest
    else c :: expandBehind pictures none rest
  | some code, c :: rest =>
    if c = ':' then shown pictures code.reverse ++ expandBehind pictures none rest
    else if Text.isBlank c then ':' :: code.reverse ++ c :: expandBehind pictures none rest
    else expandBehind pictures (some (c :: code)) rest

/-- Expands the emoji codes in a text. -/
def expand (pictures : Pictures) (text : List Char) : List Char :=
  expandBehind pictures none text

/-- A text without colons holds no code. -/
theorem expand_of_not_mem (pictures : Pictures) {text : List Char} (absent : ':' ∉ text) :
    expand pictures text = text := by
  unfold expand
  induction text with
  | nil => rfl
  | cons c rest inductionHypothesis =>
      have other : c ≠ ':' := fun same => absent (same ▸ List.mem_cons_self)
      simp [expandBehind, other,
        inductionHypothesis fun member => absent (List.mem_cons_of_mem _ member)]

end Roster.Terminal.Emoji
