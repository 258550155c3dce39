import Roster.Terminal.Emoji

/-!
# Markup

Text for the terminal may hold tags between brackets, which set a style, and emoji
codes. A backslash in front of a tag takes away its meaning, and two backslashes
there stand for one. A plain display has no styles, so rendering leaves the tags
out. `escape` makes a foreign text part of a markup: it puts a backslash in front
of whatever would be a tag.
-/

namespace Roster.Terminal.Markup

/-- Whether a character behind an opening bracket may begin a tag. -/
def beginsTag (c : Char) : Bool :=
  ('a' <= c && c <= 'z') || c = '#' || c = '/' || c = '@'

/-- Whether a bracket closes before another one opens. -/
def closes : List Char -> Bool
  | [] => false
  | c :: rest => c = ']' || (c != '[' && closes rest)

/-- Whether the text behind an opening bracket makes it a tag. -/
def isTag : List Char -> Bool
  | [] => false
  | c :: rest => beginsTag c && closes rest

/-- A number of backslashes. -/
def backslashes (count : Nat) : List Char := List.replicate count '\\'

/-- Escapes the tags of a text behind a number of backslashes: those in front of a
tag are doubled, and the tag gets one more. -/
def escapeTags : Nat -> List Char -> List Char
  | _, [] => []
  | count, c :: rest =>
    if c = '\\' then c :: escapeTags (count + 1) rest
    else if c = '[' && isTag rest then
      backslashes (count + 1) ++ c :: escapeTags 0 rest
    else c :: escapeTags 0 rest

/-- Whether exactly one backslash ends a text. -/
def endsInOneBackslash (text : List Char) : Bool :=
  match text.reverse with
  | '\\' :: '\\' :: _ => false
  | '\\' :: _ => true
  | _ => false

/-- A text that shows as it is within a markup: its tags are escaped, and a single
backslash at its end is doubled in case that a tag follows. -/
def escape (text : List Char) : List Char :=
  let escaped := escapeTags 0 text
  if endsInOneBackslash escaped then escaped ++ ['\\'] else escaped

/-- Where a markup is read. -/
inductive Place where
  /-- Outside tags, behind a number of backslashes. -/
  | plain (count : Nat)
  /-- Inside an escaped tag, which shows. -/
  | escapedTag
  /-- Inside a tag that sets a style. -/
  | styleTag
  deriving DecidableEq, Repr

/-- Puts a character in front of the first piece. -/
def join (c : Char) : List (List Char) -> List (List Char)
  | [] => [[c]]
  | piece :: others => (c :: piece) :: others

/-- Puts a text in front of the first piece. -/
def joinAll (text : List Char) (pieces : List (List Char)) : List (List Char) :=
  text.foldr join pieces

/-- The pieces of a markup that show: text between tags, backslashes in front of a
tag at half their number, and escaped tags. -/
def shownPieces : Place -> List Char -> List (List Char)
  | .plain count, [] => [backslashes count]
  | _, [] => [[]]
  | .plain count, c :: rest =>
    if c = '\\' then shownPieces (.plain (count + 1)) rest
    else if c = '[' && isTag rest then
      let behind :=
        if count % 2 = 1 then join c (shownPieces .escapedTag rest)
        else shownPieces .styleTag rest
      [] :: backslashes (count / 2) :: behind
    else joinAll (backslashes count) (join c (shownPieces (.plain 0) rest))
  | .escapedTag, c :: rest =>
    if c = ']' then [c] :: shownPieces (.plain 0) rest
    else join c (shownPieces .escapedTag rest)
  | .styleTag, c :: rest =>
    if c = ']' then shownPieces (.plain 0) rest else shownPieces .styleTag rest

/-- Takes away a backslash in front of each opening bracket. -/
def unescapeBrackets : List Char -> List Char
  | [] => []
  | '\\' :: '[' :: rest => '[' :: unescapeBrackets rest
  | c :: rest => c :: unescapeBrackets rest

/-- What a markup shows. Brackets are looked at only if there is one at all, and an
emoji code does not reach beyond its piece. -/
def render (pictures : Emoji.Pictures) (markup : List Char) : List Char :=
  if markup.contains '[' then
    (shownPieces (.plain 0) markup).flatMap fun piece =>
      Emoji.expand pictures (unescapeBrackets piece)
  else Emoji.expand pictures markup

end Roster.Terminal.Markup
