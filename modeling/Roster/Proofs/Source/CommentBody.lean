import Roster.Proofs.Source.PlainFile

/-!
# What a comment says

A comment is written up to the next newline or carriage return. It is read up to the
end of a line, and more characters end a line than those two. So what a comment says
counts as far as it stands behind such a character, and only that far: the lines that
begin inside a comment are read like all others.
-/

namespace Roster

open Roster.Storage (Path Store)

namespace Text

/-- What is left of a text behind its first line. -/
def furtherLines (text : List Char) : List Char :=
  (text.dropWhile fun c => !endsLine c).tail

/-- A text without line ends has no further lines. -/
theorem furtherLines_of_not_endsLine {text : List Char} (inside : ∀ c ∈ text, endsLine c = false) :
    furtherLines text = [] := by
  have none : text.dropWhile (fun c => !endsLine c) = [] := by
    rw [List.dropWhile_eq_nil_iff]
    exact fun c member => by rw [inside c member]; rfl
  rw [furtherLines, none, List.tail_nil]

/-- Behind the first line end all is left. -/
theorem furtherLines_append {line : List Char} (inside : ∀ c ∈ line, endsLine c = false) {c : Char}
    (ends : endsLine c = true) (rest : List Char) : furtherLines (line ++ c :: rest) = rest := by
  have kept : (line ++ c :: rest).dropWhile (fun d => !endsLine d) = c :: rest := by
    rw [List.dropWhile_append_of_pos fun d member => by rw [inside d member]; rfl]
    simp [ends]
  rw [furtherLines, kept, List.tail_cons]

/-- Newlines are unified piece by piece, unless a newline is cut in two. -/
theorem unifyNewlines_append (front : List Char) {behind : List Char}
    (whole : front.getLast? = some '\r' → behind.head? ≠ some '\n') :
    unifyNewlines (front ++ behind) = unifyNewlines front ++ unifyNewlines behind := by
  fun_induction unifyNewlines front with
  | case1 => rfl
  | case2 rest inductionHypothesis =>
      have tail : rest.getLast? = some '\r' → behind.head? ≠ some '\n' := fun last =>
        whole (by simp [List.getLast?_cons, last])
      simp [unifyNewlines, inductionHypothesis tail]
  | case3 c rest single inductionHypothesis =>
      have tail : rest.getLast? = some '\r' → behind.head? ≠ some '\n' := fun last =>
        whole (by simp [List.getLast?_cons, last])
      have stillSingle : ∀ others, c = '\r' → rest ++ behind = '\n' :: others → False := by
        intro others isReturn same
        cases rest with
        | nil => exact whole (by simp [isReturn]) (by simp [show behind = '\n' :: others from same])
        | cons d more =>
            obtain ⟨rfl, -⟩ := List.cons.inj same
            exact single more isReturn rfl
      rw [List.cons_append, unifyNewlines, inductionHypothesis tail, List.cons_append]
      exact stillSingle

/-- Where newlines are unified, a text ends as before but for a carriage return. -/
theorem getLast?_unifyNewlines (text : List Char) :
    (unifyNewlines text).getLast? = text.getLast?.map fun c => if c = '\r' then '\n' else c := by
  fun_induction unifyNewlines text with
  | case1 => rfl
  | case2 rest inductionHypothesis =>
      simp only [List.getLast?_cons, inductionHypothesis]
      cases rest.getLast? <;> rfl
  | case3 c rest _ inductionHypothesis =>
      simp only [List.getLast?_cons, inductionHypothesis]
      cases rest.getLast? <;> rfl

/-- A word begins with the number sign in front of a text. -/
theorem exists_words_sign (text : List Char) :
    ∃ word others, words ('#' :: text) = word :: others ∧ beginsWithSign word = true := by
  have visible : isBlank '#' = false := rfl
  rw [words, visible]
  simp only [Bool.false_eq_true, if_false]
  split
  · split
    · exact ⟨_, _, rfl, rfl⟩
    · exact ⟨_, _, rfl, rfl⟩
  · exact ⟨_, _, rfl, rfl⟩

/-- The words in front of a blank character, or of the beginning, are whole words. -/
theorem words_append_of_blank_end {front : List Char}
    (opens : front.getLast?.all isBlank = true) (behind : List Char) :
    words (front ++ behind) = words front ++ words behind := by
  rcases List.eq_nil_or_concat front with rfl | ⟨others, last, rfl⟩
  · rfl
  · have blank : isBlank last = true := by simpa using opens
    rw [List.concat_eq_append, List.append_assoc, List.singleton_append, words_append_blank blank,
      words_append_blank blank, words_nil, List.append_nil]

/-- In a line, a comment adds no word to those in front of a comment. -/
theorem words_cutComment_append {front : List Char} (opens : front.getLast?.all isBlank = true)
    (body : List Char) :
    words (cutComment (front ++ '#' :: body)) = words (cutComment front) := by
  obtain ⟨word, others, same, sign⟩ := exists_words_sign body
  rw [words_cutComment, words_cutComment, words_append_of_blank_end opens, same,
    List.takeWhile_append]
  split
  · rename_i all
    have whole := (List.takeWhile_prefix fun word => !beginsWithSign word).eq_of_length all
    rw [List.takeWhile_cons_of_neg (by simp [sign]), List.append_nil, whole]
  · rfl

end Text

/-- The descriptors on both sides of a line end. -/
theorem plainDescriptors_append_endsLine {c : Char} (ends : Text.endsLine c = true)
    (front behind : List Char) :
    plainDescriptors (front ++ c :: behind) = plainDescriptors front ++ plainDescriptors behind := by
  induction front using Text.separated_induction Text.endsLine with
  | whole piece inside =>
      simp only [plainDescriptors, Text.lines_append inside ends,
        Text.lines_of_not_endsLine inside, List.flatMap_cons]
      cases piece <;> simp [Text.cutComment, Text.cutCommentAfter, wordsOf]
  | cut piece d rest inside endsPiece inductionHypothesis =>
      rw [List.append_assoc, List.cons_append]
      simp only [plainDescriptors, Text.lines_append inside endsPiece, List.flatMap_cons] at *
      rw [inductionHypothesis, List.append_assoc]

/-- A comment in a line adds no descriptor. -/
theorem plainDescriptors_append_comment {front : List Char}
    (opens : front.getLast?.all Text.isBlank = true) {body : List Char}
    (inside : ∀ c ∈ body, Text.endsLine c = false) :
    plainDescriptors (front ++ '#' :: body) = plainDescriptors front := by
  induction front using Text.separated_induction Text.endsLine with
  | whole piece insidePiece =>
      have insideLine : ∀ c ∈ piece ++ '#' :: body, Text.endsLine c = false := by
        intro c member
        rcases List.mem_append.1 member with inPiece | inComment
        · exact insidePiece c inPiece
        · rcases List.mem_cons.1 inComment with rfl | inBody
          · rfl
          · exact inside c inBody
      have words := Text.words_cutComment_append opens body
      simp only [plainDescriptors, Text.lines_of_not_endsLine insideLine,
        Text.lines_of_not_endsLine insidePiece, wordsOf]
      cases piece with
      | nil => simpa [Text.cutComment, Text.cutCommentAfter] using words
      | cons d others => simpa using congrArg (List.map String.ofList) words
  | cut piece d rest insidePiece ends inductionHypothesis =>
      have opensRest : rest.getLast?.all Text.isBlank = true := by
        cases rest with
        | nil => rfl
        | cons e others =>
            rwa [List.getLast?_append_of_ne_nil _ (List.cons_ne_nil _ _),
              List.getLast?_cons_cons] at opens
      rw [List.append_assoc, List.cons_append, plainDescriptors_append_endsLine ends,
        plainDescriptors_append_endsLine ends, inductionHypothesis opensRest]

/-- The descriptors of a text with a comment, where newlines are unified. -/
theorem plainDescriptors_comment {front behind : List Char}
    (opens : front.getLast?.all Text.isBlank = true) (body : List Char)
    (ends : ∀ c ∈ behind.head?, c = '\n') :
    plainDescriptors (front ++ '#' :: (body ++ behind)) =
      plainDescriptors front ++ plainDescriptors (Text.furtherLines body) ++
        plainDescriptors behind := by
  -- What follows the comment begins a line of its own.
  have behindLines : ∀ front', plainDescriptors (front' ++ behind) =
      plainDescriptors front' ++ plainDescriptors behind := by
    intro front'
    cases behind with
    | nil => simp [plainDescriptors, Text.lines]
    | cons c rest =>
        obtain rfl := ends c rfl
        have alone := plainDescriptors_append_endsLine (c := '\n') rfl [] rest
        rw [List.nil_append] at alone
        rw [plainDescriptors_append_endsLine rfl, alone]
        rfl
  induction body using Text.separated_induction Text.endsLine with
  | whole piece inside =>
      have regroup : front ++ '#' :: (piece ++ behind) = (front ++ '#' :: piece) ++ behind := by simp
      rw [regroup, behindLines, plainDescriptors_append_comment opens inside,
        Text.furtherLines_of_not_endsLine inside]
      simp [plainDescriptors, Text.lines]
  | cut piece c rest inside endsPiece _ =>
      have regroup : front ++ '#' :: (piece ++ c :: rest ++ behind) =
          (front ++ '#' :: piece) ++ c :: (rest ++ behind) := by simp
      rw [regroup, plainDescriptors_append_endsLine endsPiece, behindLines,
        plainDescriptors_append_comment opens inside, Text.furtherLines_append inside endsPiece,
        List.append_assoc]

/-- What a comment can say: all that is written between its number sign and the end of its
line. -/
structure IsCommentBody (body : List Char) : Prop where
  noNewline : '\n' ∉ body
  noReturn : '\r' ∉ body

/-- A place for a comment in a text, in which a byte order mark in front does not count: the
number sign begins the text or stands behind a blank character, and the comment goes on up
to a newline, a carriage return or the end. -/
structure CommentPlace where
  front : List Char
  behind : List Char
  begins : (Text.Utf8.withoutMark front).getLast?.all Text.isBlank = true
  ends : ∀ c ∈ behind.head?, c = '\n' ∨ c = '\r'

namespace CommentPlace

/-- The text with a comment in the place. -/
def saying (place : CommentPlace) (body : List Char) : List Char :=
  place.front ++ '#' :: (body ++ place.behind)

/-- A byte order mark in front of the text stands in front of the comment. -/
theorem withoutMark_saying (place : CommentPlace) (body : List Char) :
    Text.Utf8.withoutMark (place.saying body) =
      Text.Utf8.withoutMark place.front ++ '#' :: (body ++ place.behind) := by
  rw [saying]
  cases place.front with
  | nil => rfl
  | cons c others =>
      simp only [List.cons_append, Text.Utf8.withoutMark]
      split <;> rfl

/-- Unifying newlines neither joins the comment to what is in front of it nor to what is
behind its line. -/
theorem unifyNewlines_saying (front : List Char) {body : List Char} (isBody : IsCommentBody body)
    (behind : List Char) :
    Text.unifyNewlines (front ++ '#' :: (body ++ behind)) =
      Text.unifyNewlines front ++ '#' :: (body ++ Text.unifyNewlines behind) := by
  have noReturn : '\r' ∉ '#' :: body := by simpa using isBody.noReturn
  have comment : Text.unifyNewlines ('#' :: body ++ behind) =
      '#' :: body ++ Text.unifyNewlines behind := by
    rw [Text.unifyNewlines_append, Text.unifyNewlines_of_not_mem noReturn]
    exact fun last => absurd (List.mem_of_getLast? last) noReturn
  have whole : front.getLast? = some '\r' → ('#' :: (body ++ behind)).head? ≠ some '\n' := by simp
  rw [Text.unifyNewlines_append front whole]
  exact congrArg (Text.unifyNewlines front ++ ·) comment

/-- With newlines unified, a comment still begins the text or stands behind a blank
character. -/
theorem begins_unifyNewlines {front : List Char} (begins : front.getLast?.all Text.isBlank = true) :
    (Text.unifyNewlines front).getLast?.all Text.isBlank = true := by
  rw [Text.getLast?_unifyNewlines]
  cases last : front.getLast? with
  | none => rfl
  | some c =>
      rw [last] at begins
      by_cases isReturn : c = '\r'
      · rw [Option.map_some, if_pos isReturn]
        rfl
      · rwa [Option.map_some, if_neg isReturn]

/-- With newlines unified, a comment still goes on up to a line end or the end. -/
theorem ends_unifyNewlines {behind : List Char} (ends : ∀ c ∈ behind.head?, c = '\n' ∨ c = '\r') :
    ∀ c ∈ (Text.unifyNewlines behind).head?, c = '\n' := by
  fun_cases Text.unifyNewlines behind with
  | case1 => simp
  | case2 => simp
  | case3 c rest _ =>
      rcases ends c rfl with rfl | rfl
      · simp
      · simp

/-- The descriptors of a text with a comment: those in front of it, those of the lines that
begin inside it, and those behind its line. -/
theorem plainDescriptors_saying (place : CommentPlace) {body : List Char}
    (isBody : IsCommentBody body) :
    plainDescriptors (Text.unifyNewlines (Text.Utf8.withoutMark (place.saying body))) =
      plainDescriptors (Text.unifyNewlines (Text.Utf8.withoutMark place.front)) ++
        plainDescriptors (Text.furtherLines body) ++
        plainDescriptors (Text.unifyNewlines place.behind) := by
  have opens := begins_unifyNewlines place.begins
  rw [withoutMark_saying, unifyNewlines_saying _ isBody]
  exact plainDescriptors_comment opens body (ends_unifyNewlines place.ends)

end CommentPlace

/-- Whether another comment leaves the descriptors of a file unchanged is decided by the
lines that begin inside the two comments: it does exactly if these hold the same
descriptors. -/
theorem comments_read_alike_iff {place : CommentPlace} {body other : List Char}
    (isBody : IsCommentBody body) (isOther : IsCommentBody other) {store changed : Store}
    {path : Path} (holds : HoldsText store path (place.saying body))
    (holdsChanged : HoldsText changed path (place.saying other)) :
    ∃ before after, ((Reader.plainFile path).read store).1 = .ok before ∧
      ((Reader.plainFile path).read changed).1 = .ok after ∧
      (before.configuration.descriptors = after.configuration.descriptors ↔
        plainDescriptors (Text.furtherLines body) = plainDescriptors (Text.furtherLines other)) := by
  obtain ⟨before, read, -, same⟩ := exists_read_plainFile holds
  obtain ⟨after, readChanged, -, sameChanged⟩ := exists_read_plainFile holdsChanged
  refine ⟨before, after, read, readChanged, ?_⟩
  rw [same, sameChanged, place.plainDescriptors_saying isBody, place.plainDescriptors_saying isOther,
    List.append_cancel_right_eq, List.append_cancel_left_eq]

/-- The store with a plain text file in which a comment says something. -/
def CommentPlace.file (place : CommentPlace) (body : List Char) : Store :=
  storeHolding "cluster.conf" (place.saying body)

/-- A comment behind a byte order mark and an indentation, in a line that ends in two
characters. -/
def indentedComment : CommentPlace where
  front := "\ufeff  ".toList
  behind := "\r\nnode1".toList
  begins := by decide
  ends := by simp

/-- What a comment on one line says. -/
def singleLine : List Char := " rack A".toList

/-- What a comment says in which lines end, and that begins again in the last of them. -/
def commentedLines : List Char := " rack\x0b\u2028 # B".toList

/-- Line ends inside a comment do not count if nothing but another comment stands behind
them. -/
theorem comments_read_alike_commented_lines :
    IsCommentBody singleLine ∧ IsCommentBody commentedLines ∧
      HoldsText (indentedComment.file singleLine) (.ofString "cluster.conf")
        (indentedComment.saying singleLine) ∧
      HoldsText (indentedComment.file commentedLines) (.ofString "cluster.conf")
        (indentedComment.saying commentedLines) ∧
      ∃ before after,
        ((Reader.plainFile (.ofString "cluster.conf")).read
          (indentedComment.file singleLine)).1 = .ok before ∧
        ((Reader.plainFile (.ofString "cluster.conf")).read
          (indentedComment.file commentedLines)).1 = .ok after ∧
        before.configuration.descriptors = after.configuration.descriptors := by
  have isBody : IsCommentBody singleLine := ⟨by decide, by decide⟩
  have isOther : IsCommentBody commentedLines := ⟨by decide, by decide⟩
  have holds : HoldsText (indentedComment.file singleLine) (.ofString "cluster.conf")
      (indentedComment.saying singleLine) := ⟨by decide +kernel, by decide +kernel⟩
  have holdsChanged : HoldsText (indentedComment.file commentedLines) (.ofString "cluster.conf")
      (indentedComment.saying commentedLines) := ⟨by decide +kernel, by decide +kernel⟩
  obtain ⟨before, after, read, readChanged, iff⟩ :=
    comments_read_alike_iff isBody isOther holds holdsChanged
  exact ⟨isBody, isOther, holds, holdsChanged, before, after, read, readChanged,
    iff.2 (by decide +kernel)⟩

/-- A comment behind a descriptor. -/
def trailingComment : CommentPlace where
  front := "node1 ".toList
  behind := "\n".toList
  begins := by decide
  ends := by simp

/-- What a comment says in which a line begins that is no comment. -/
def enteringLine : List Char := " rack A\x0bnode2".toList

/-- A comment in which a line begins adds a descriptor. -/
theorem comment_adds_descriptor :
    IsCommentBody singleLine ∧ IsCommentBody enteringLine ∧
      HoldsText (trailingComment.file singleLine) (.ofString "cluster.conf")
        (trailingComment.saying singleLine) ∧
      HoldsText (trailingComment.file enteringLine) (.ofString "cluster.conf")
        (trailingComment.saying enteringLine) ∧
      ∃ before after,
        ((Reader.plainFile (.ofString "cluster.conf")).read
          (trailingComment.file singleLine)).1 = .ok before ∧
        ((Reader.plainFile (.ofString "cluster.conf")).read
          (trailingComment.file enteringLine)).1 = .ok after ∧
        before.configuration.descriptors = ["node1"] ∧
        after.configuration.descriptors = ["node1", "node2"] := by
  have holds : HoldsText (trailingComment.file singleLine) (.ofString "cluster.conf")
      (trailingComment.saying singleLine) := ⟨by decide +kernel, by decide +kernel⟩
  have holdsChanged : HoldsText (trailingComment.file enteringLine) (.ofString "cluster.conf")
      (trailingComment.saying enteringLine) := ⟨by decide +kernel, by decide +kernel⟩
  obtain ⟨before, read, -, same⟩ := exists_read_plainFile holds
  obtain ⟨after, readChanged, -, sameChanged⟩ := exists_read_plainFile holdsChanged
  exact ⟨⟨by decide, by decide⟩, ⟨by decide, by decide⟩, holds, holdsChanged, before, after, read,
    readChanged, same.trans (by decide +kernel), sameChanged.trans (by decide +kernel)⟩

end Roster
