import Roster.Proofs.Yaml.Character
import Roster.Proofs.Yaml.Escape

/-!
# Quoted scalars read back

Between quotes, what stands for a text is read part by part: characters that stand
for themselves, escapes, and line breaks behind a backslash, which stand for
nothing. A text without blanks is written as such parts, so it reads back.
-/

namespace Roster.Yaml

open Roster.Text (CodePoint Unbroken)

namespace Token

/-- A closing quote ends the content. -/
theorem quotedContent_close (style : QuoteStyle) (since : Mark) (fuel : Nat) (mark : Mark)
    {rest : List Char} (single : style = .single → rest.head? ≠ some '\'') :
    quotedContent style since (fuel + 1) ⟨mark, style.mark :: rest⟩ =
      .ok ([], ⟨mark.after style.mark, rest⟩) := by
  have closes : (style == .single && Cursor.peekAt ⟨mark, style.mark :: rest⟩ 1 == style.mark) =
      false := by
    cases style with
    | double => rfl
    | single =>
        have other := single rfl
        cases rest with
        | nil => rfl
        | cons c others =>
            have differs : c ≠ '\'' := fun same => other (by simp [same])
            simpa [Cursor.peekAt, QuoteStyle.mark] using differs
  rw [quotedContent]
  simp only [Cursor.peek_cons, beq_self_eq_true, closes, Bool.not_false, Bool.and_self, if_true,
    Cursor.advance_cons]
  rfl

/-- The characters that stand for themselves between quotes. -/
structure IsLiteral (style : QuoteStyle) (c : Char) : Prop where
  notMark : c ≠ style.mark
  noEscape : style = .double → c ≠ '\\'
  notSpace : isSpaceOrTab c = false
  notBreak : isBreakOrEnd c = false

/-- Reading goes on behind a character that stands for itself. -/
theorem quotedContent_cons {style : QuoteStyle} {since : Mark} {fuel : Nat} (mark : Mark)
    {c : Char} (isLiteral : IsLiteral style c) (rest : List Char) :
    quotedContent style since (fuel + 1) ⟨mark, c :: rest⟩ =
      (quotedContent style since fuel ⟨mark.after c, rest⟩).map
        fun read => (.char c :: read.1, read.2) := by
  have notMark : (c == style.mark) = false := by simpa using isLiteral.notMark
  have noEscape : (style == .double && c == '\\') = false := by
    cases style with
    | single => rfl
    | double => simpa using isLiteral.noEscape rfl
  rw [quotedContent]
  simp only [Cursor.peek_cons, notMark, noEscape, isLiteral.notSpace, isLiteral.notBreak,
    Bool.false_and, Bool.false_eq_true, if_false, Bool.or_self, Cursor.advance_cons, pure_bind]
  cases quotedContent style since fuel ⟨mark.after c, rest⟩ <;> rfl

/-- A character that stands for itself. -/
theorem quotedContent_literal {style : QuoteStyle} {since : Mark} {fuel : Nat} (mark : Mark)
    {c : Char} {rest : List Char} {others : List CodePoint} {final : Cursor}
    (isLiteral : IsLiteral style c)
    (read : quotedContent style since fuel ⟨mark.after c, rest⟩ = .ok (others, final)) :
    quotedContent style since (fuel + 1) ⟨mark, c :: rest⟩ = .ok (.char c :: others, final) := by
  rw [quotedContent_cons mark isLiteral, read]
  rfl

/-- Reading goes on behind an escape between double quotes. -/
theorem quotedContent_backslash {since : Mark} {fuel : Nat} (mark : Mark) (rest : List Char) :
    quotedContent .double since (fuel + 1) ⟨mark, '\\' :: rest⟩ =
      escape since ⟨mark.after '\\', rest⟩ >>= fun part =>
        (quotedContent .double since fuel part.2).map fun read => (part.1 ++ read.1, read.2) := by
  have notMark : ('\\' == QuoteStyle.double.mark) = false := by decide
  rw [quotedContent]
  simp only [Cursor.peek_cons, notMark, Bool.false_and, Bool.false_eq_true, if_false,
    beq_self_eq_true, Bool.and_self, if_true, Cursor.advance_cons]
  refine bind_congr fun part => ?_
  cases quotedContent .double since fuel part.2 <;> rfl

/-- An escape between double quotes. -/
theorem quotedContent_escape {since : Mark} {fuel : Nat} {mark : Mark}
    {rest : List Char} {part others : List CodePoint} {next final : Cursor}
    (escaped : escape since ⟨mark.after '\\', rest⟩ = .ok (part, next))
    (read : quotedContent .double since fuel next = .ok (others, final)) :
    quotedContent .double since (fuel + 1) ⟨mark, '\\' :: rest⟩ = .ok (part ++ others, final) := by
  rw [quotedContent_backslash, escaped]
  simp only [bind, Except.bind, read]
  rfl

/-- A line break behind a backslash stands for nothing, together with the spaces at
the beginning of the next line. -/
theorem escape_lineBreak (since mark : Mark) {count : Nat} (positive : 0 < count)
    {rest : List Char} (settled : ∀ c ∈ rest.head?, isSpaceOrTab c = false ∧ isBreak c = false) :
    escape since ⟨mark, '\n' :: List.replicate count ' ' ++ rest⟩ =
      .ok ([], ⟨mark.behind ('\n' :: List.replicate count ' '), rest⟩) := by
  obtain ⟨less, rfl⟩ := Nat.exists_eq_succ_of_ne_zero (Nat.ne_of_gt positive)
  have skipped := Cursor.skipWhile_append (mark.after '\n') (List.replicate (less + 1) ' ')
    (fun c member => by rw [List.eq_of_mem_replicate member]; rfl)
    (fun c member => (settled c member).1)
  have noBreak : isBreak (Cursor.peek ⟨(mark.after '\n').behind
      (List.replicate (less + 1) ' '), rest⟩) = false := by
    cases rest with
    | nil => rfl
    | cons c others => exact (settled c rfl).2
  have noMarker : Cursor.atDocumentMarker ⟨mark.after '\n', List.replicate (less + 1) ' ' ++ rest⟩ =
      false := rfl
  have lookups : shortEscapes.lookup '\n' = none ∧ codeEscapes.lookup '\n' = none := ⟨rfl, rfl⟩
  have isNewline : Cursor.lineBreak ⟨mark, '\n' :: (List.replicate (less + 1) ' ' ++ rest)⟩ =
      (['\n'], ⟨mark.after '\n', List.replicate (less + 1) ' ' ++ rest⟩) := rfl
  have fuel : (List.replicate (less + 1) ' ' ++ rest).length = (less + rest.length) + 1 := by
    simp
    omega
  simp only [List.cons_append, escape, Cursor.peek_cons, lookups, isNewline, fuel]
  rw [if_pos (show isBreak '\n' = true from rfl), quotedBreaks]
  simp only [noMarker, Bool.false_eq_true, if_false, skipped, noBreak]
  rfl

/-- A character that is written as itself between double quotes stands for itself. -/
theorem isLiteral_double {c : Char} (visible : Text.isBlank c = false)
    (plain : Presentation.isEscaped c = false) : IsLiteral .double c := by
  simp only [Presentation.isEscaped, Bool.or_eq_false_iff, beq_eq_false_iff_ne] at plain
  obtain ⟨⟨⟨⟨⟨noEscape, notMark⟩, notBackslash⟩, -⟩, -⟩, -⟩ := plain
  have inside : c ≠ endOfText := by
    rintro rfl
    exact absurd noEscape (by decide)
  exact ⟨notMark, fun _ => notBackslash, isSpaceOrTab_of_visible visible,
    isBreakOrEnd_of_visible visible inside⟩

/-- What may stand between double quotes for a text: escapes, characters that need
none, and line breaks, which stand for nothing. -/
inductive DoubleQuoted : List Char → List Char → Prop where
  | nil : DoubleQuoted [] []
  | escaped (c : Char) {content text : List Char} (behind : DoubleQuoted content text) :
      DoubleQuoted (Presentation.escape c ++ content) (c :: text)
  | literal {c : Char} {content text : List Char} (plain : Presentation.isEscaped c = false)
      (behind : DoubleQuoted content text) : DoubleQuoted (c :: content) (c :: text)
  | softBreak {content text : List Char} (behind : DoubleQuoted content text) :
      DoubleQuoted (Presentation.softBreak ++ content) text

/-- What is written between double quotes stands for its text, wherever its lines are
broken. -/
theorem doubleQuoted_doubleQuotedContent (isFirst : Bool) (column pending : Nat)
    (text : List Char) :
    DoubleQuoted (Presentation.doubleQuotedContent isFirst column pending (text.map .char))
      text := by
  induction text generalizing isFirst column pending with
  | nil => exact .nil
  | cons c others inductionHypothesis =>
      rw [List.map_cons, Presentation.doubleQuotedContent]
      by_cases needed : Presentation.isEscaped c = true
      · rw [if_pos (show Presentation.isEscapedCode (.char c) = true from needed)]
        dsimp only [Presentation.escapeCode]
        split
        · rw [List.append_assoc]
          exact .escaped c (.softBreak (inductionHypothesis ..))
        · exact .escaped c (inductionHypothesis ..)
      · rw [if_neg (show ¬Presentation.isEscapedCode (.char c) = true from needed)]
        have literal := Bool.eq_false_iff.2 needed
        split
        · rw [List.append_assoc]
          exact .softBreak (.literal literal (inductionHypothesis ..))
        · exact .literal literal (inductionHypothesis ..)

/-- What is written by hand between double quotes for a text: every quote and every
backslash stands behind a backslash. -/
def backslashed (text : List Char) : List Char :=
  text.flatMap fun c => if c = '"' ∨ c = '\\' then ['\\', c] else [c]

theorem backslashed_cons (c : Char) (others : List Char) :
    backslashed (c :: others) =
      (if c = '"' ∨ c = '\\' then ['\\', c] else [c]) ++ backslashed others :=
  List.flatMap_cons

/-- A text in which nothing else needs an escape may be written by hand. -/
theorem doubleQuoted_backslashed {text : List Char}
    (noEscape : ∀ c ∈ text, Presentation.isEscaped c = true → c = '"' ∨ c = '\\') :
    DoubleQuoted (backslashed text) text := by
  induction text with
  | nil => exact .nil
  | cons c others inductionHypothesis =>
      have behind := inductionHypothesis fun d member => noEscape d (List.mem_cons_of_mem _ member)
      rw [backslashed_cons]
      by_cases special : c = '"' ∨ c = '\\'
      · have written : Presentation.escape c = ['\\', c] := by
          rcases special with rfl | rfl <;> rfl
        rw [if_pos special, ← written]
        exact .escaped c behind
      · rw [if_neg special]
        refine .literal (Bool.eq_false_iff.2 fun escaped => ?_) behind
        exact special (noEscape c List.mem_cons_self escaped)

/-- Content between double quotes and the closing quote begin with no white space. -/
theorem DoubleQuoted.head {content text : List Char} (isContent : DoubleQuoted content text)
    (unbroken : Unbroken text) (rest : List Char) :
    ∀ c ∈ (content ++ '"' :: rest).head?, isSpaceOrTab c = false ∧ isBreak c = false := by
  intro c isHead
  cases isContent with
  | nil =>
      obtain rfl := Option.some.inj isHead
      exact ⟨rfl, rfl⟩
  | escaped d _ =>
      obtain ⟨digits, escaped, -, -⟩ := exists_escape .zero d
      rw [escaped] at isHead
      obtain rfl := Option.some.inj isHead
      exact ⟨rfl, rfl⟩
  | literal _ _ =>
      obtain rfl := Option.some.inj isHead
      exact ⟨isSpaceOrTab_of_visible unbroken.head, isBreak_of_visible unbroken.head⟩
  | softBreak _ =>
      obtain rfl := Option.some.inj isHead
      exact ⟨rfl, rfl⟩

/-- A line break in a scalar between double quotes is read as nothing. -/
theorem quotedContent_softBreak {since : Mark} {fuel : Nat} (mark : Mark)
    {rest : List Char} {others : List CodePoint} {final : Cursor}
    (settled : ∀ c ∈ rest.head?, isSpaceOrTab c = false ∧ isBreak c = false)
    (read : quotedContent .double since fuel ⟨mark.behind Presentation.softBreak, rest⟩ =
      .ok (others, final)) :
    quotedContent .double since (fuel + 1) ⟨mark, Presentation.softBreak ++ rest⟩ =
      .ok (others, final) :=
  quotedContent_escape (escape_lineBreak since (mark.after '\\') (by decide) settled) read

/-- A character that is written as an escape is read back. -/
theorem quotedContent_escaped {since : Mark} {fuel : Nat} (mark : Mark) (c : Char)
    {rest : List Char} {others : List CodePoint} {final : Cursor}
    (read : quotedContent .double since fuel ⟨mark.behind (Presentation.escape c), rest⟩ =
      .ok (others, final)) :
    quotedContent .double since (fuel + 1) ⟨mark, Presentation.escape c ++ rest⟩ =
      .ok (.char c :: others, final) := by
  obtain ⟨digits, escaped, -, reads⟩ := exists_escape since c
  rw [escaped] at read ⊢
  exact quotedContent_escape (reads (mark.after '\\') rest) read

/-- Every escape takes up room. -/
theorem length_escape_pos (c : Char) : 0 < (Presentation.escape c).length := by
  obtain ⟨digits, escaped, -, -⟩ := exists_escape .zero c
  simp [escaped]

/-- Content between double quotes reads back as its text. -/
theorem quotedContent_double (since : Mark) {content text : List Char}
    (isContent : DoubleQuoted content text) (unbroken : Unbroken text) (fuel : Nat) (mark : Mark)
    (rest : List Char) (enough : content.length < fuel) :
    quotedContent .double since fuel ⟨mark, content ++ '"' :: rest⟩ =
      .ok (text.map .char, ⟨mark.behind (content ++ ['"']), rest⟩) := by
  -- Each part takes one turn, and none is empty.
  obtain ⟨less, rfl⟩ := Nat.exists_eq_succ_of_ne_zero (Nat.ne_of_gt (Nat.zero_lt_of_lt enough))
  induction isContent generalizing less mark with
  | nil => exact quotedContent_close .double since less mark fun single => by cases single
  | escaped c behind inductionHypothesis =>
      have room := length_escape_pos c
      rw [List.length_append] at enough
      obtain ⟨least, rfl⟩ := Nat.exists_eq_add_of_le' (show 1 ≤ less by omega)
      have read := quotedContent_escaped mark c
        (inductionHypothesis unbroken.tail _ least (by omega))
      simpa [Mark.behind_append] using read
  | literal plain behind inductionHypothesis =>
      rw [List.length_cons] at enough
      obtain ⟨least, rfl⟩ := Nat.exists_eq_add_of_le' (show 1 ≤ less by omega)
      have read := quotedContent_literal mark (isLiteral_double unbroken.head plain)
        (inductionHypothesis unbroken.tail _ least (by omega))
      simpa [Mark.behind_append] using read
  | softBreak behind inductionHypothesis =>
      rw [List.length_append] at enough
      have room : 0 < Presentation.softBreak.length := by decide
      obtain ⟨least, rfl⟩ := Nat.exists_eq_add_of_le' (show 1 ≤ less by omega)
      have read := quotedContent_softBreak mark (behind.head unbroken rest)
        (inductionHypothesis unbroken _ least (by omega))
      simpa [Mark.behind_append] using read

/-- A scalar between double quotes reads back as its text. -/
theorem quotedScalar_double {content text : List Char} (isContent : DoubleQuoted content text)
    (unbroken : Unbroken text) (mark : Mark) (rest : List Char) :
    quotedScalar .double ⟨mark, '"' :: content ++ '"' :: rest⟩ =
      .ok (String.ofList text, ⟨mark.behind ('"' :: content ++ ['"']), rest⟩) := by
  simp only [quotedScalar, List.cons_append, Cursor.advance_cons]
  rw [quotedContent_double mark isContent unbroken]
  · simp only [bind, Except.bind, Text.Wide.ofCodes_chars]
    rfl
  · simp
    omega

/-- A quote that is written twice between single quotes stands for one. -/
theorem quotedContent_doubled {since : Mark} {fuel : Nat} (mark : Mark)
    {rest : List Char} {others : List CodePoint} {final : Cursor}
    (read : quotedContent .single since fuel ⟨mark.behind ['\'', '\''], rest⟩ =
      .ok (others, final)) :
    quotedContent .single since (fuel + 1) ⟨mark, '\'' :: '\'' :: rest⟩ =
      .ok (.char '\'' :: others, final) := by
  have second : Cursor.peekAt ⟨mark, '\'' :: '\'' :: rest⟩ 1 = '\'' := rfl
  have skipped : Cursor.skip ⟨mark, '\'' :: '\'' :: rest⟩ 2 =
      ⟨mark.behind ['\'', '\''], rest⟩ := rfl
  rw [quotedContent]
  simp only [Cursor.peek_cons, QuoteStyle.mark, beq_self_eq_true, second, skipped, Bool.and_self,
    Bool.not_true, Bool.and_false, Bool.false_eq_true, if_false, if_true, pure_bind, read]
  rfl

/-- What stands between single quotes for a text: every quote is written twice. -/
def doubledQuotes (text : List Char) : List Char :=
  text.flatMap fun c => if c = '\'' then ['\'', '\''] else [c]

theorem doubledQuotes_cons (c : Char) (others : List Char) :
    doubledQuotes (c :: others) =
      (if c = '\'' then ['\'', '\''] else [c]) ++ doubledQuotes others :=
  List.flatMap_cons

/-- No other characters are written between single quotes. -/
theorem mem_of_mem_doubledQuotes {text : List Char} {c : Char}
    (member : c ∈ doubledQuotes text) : c ∈ text := by
  obtain ⟨d, isMember, written⟩ := List.mem_flatMap.1 member
  by_cases quote : d = '\''
  · rw [if_pos quote, ← quote] at written
    have same : c = d := by simpa using written
    exact same ▸ isMember
  · rw [if_neg quote, List.mem_singleton] at written
    exact written ▸ isMember

/-- A text without quotes stands for itself. -/
theorem doubledQuotes_of_not_mem {text : List Char} (noQuote : '\'' ∉ text) :
    doubledQuotes text = text := by
  induction text with
  | nil => rfl
  | cons c others inductionHypothesis =>
      rw [List.mem_cons, not_or] at noQuote
      rw [doubledQuotes_cons, if_neg (Ne.symm noQuote.1), inductionHypothesis noQuote.2]
      rfl

/-- Content between single quotes reads back with every doubled quote as one. -/
theorem quotedContent_single (since : Mark) {text : List Char} (unbroken : Unbroken text)
    (noEnd : endOfText ∉ text) (fuel : Nat) (mark : Mark) {rest : List Char}
    (closed : rest.head? ≠ some '\'') (enough : (doubledQuotes text).length < fuel) :
    quotedContent .single since fuel ⟨mark, doubledQuotes text ++ '\'' :: rest⟩ =
      .ok (text.map .char, ⟨mark.behind (doubledQuotes text ++ ['\'']), rest⟩) := by
  obtain ⟨less, rfl⟩ := Nat.exists_eq_succ_of_ne_zero (Nat.ne_of_gt (Nat.zero_lt_of_lt enough))
  induction text generalizing less mark with
  | nil => exact quotedContent_close .single since less mark fun _ => closed
  | cons c others inductionHypothesis =>
      have noEndBehind : endOfText ∉ others := fun member => noEnd (List.mem_cons_of_mem _ member)
      rw [doubledQuotes_cons, List.length_append] at enough
      rw [doubledQuotes_cons]
      by_cases quote : c = '\''
      · simp only [if_pos quote, List.length_cons, List.length_nil] at enough
        obtain ⟨least, rfl⟩ := Nat.exists_eq_add_of_le' (show 1 ≤ less by omega)
        have read := quotedContent_doubled mark
          (inductionHypothesis unbroken.tail noEndBehind _ least (by omega))
        rw [if_pos quote, quote]
        simpa [Mark.behind_append] using read
      · have isLiteral : IsLiteral .single c := by
          have inside : c ≠ endOfText := fun same => noEnd (by simp [same])
          exact ⟨quote, (fun double => by cases double), isSpaceOrTab_of_visible unbroken.head,
            isBreakOrEnd_of_visible unbroken.head inside⟩
        simp only [if_neg quote, List.length_cons, List.length_nil] at enough
        obtain ⟨least, rfl⟩ := Nat.exists_eq_add_of_le' (show 1 ≤ less by omega)
        have read := quotedContent_literal mark isLiteral
          (inductionHypothesis unbroken.tail noEndBehind (mark.after c) least (by omega))
        rw [if_neg quote]
        simpa [Mark.behind_append] using read

/-- A scalar between single quotes reads back with every doubled quote as one. -/
theorem quotedScalar_single {text : List Char} (unbroken : Unbroken text)
    (noEnd : endOfText ∉ text) (mark : Mark) {rest : List Char}
    (closed : rest.head? ≠ some '\'') :
    quotedScalar .single ⟨mark, '\'' :: doubledQuotes text ++ '\'' :: rest⟩ =
      .ok (String.ofList text, ⟨mark.behind ('\'' :: doubledQuotes text ++ ['\'']), rest⟩) := by
  simp only [quotedScalar, List.cons_append, Cursor.advance_cons]
  rw [quotedContent_single mark unbroken noEnd _ _ closed]
  · simp only [bind, Except.bind, Text.Wide.ofCodes_chars]
    rfl
  · simp
    omega

end Token

end Roster.Yaml
