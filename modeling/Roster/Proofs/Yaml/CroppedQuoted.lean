import Roster.Proofs.Text.Cropped
import Roster.Proofs.Yaml.QuotedLine
import Roster.Proofs.Yaml.Rendered

/-!
# Quoted scalars whose lines are cut

What is read of a quoted scalar if one of its lines is cut. Either there is an error, or
the scalar ends on a later line than it begins and its text is not the one that was
written: it holds a blank character, or it is shorter.
-/

namespace Roster.Yaml

open Roster.Text (CodePoint Unbroken Cropped)

/-- What stands behind the line of an entry: nothing, or the line of a further one. -/
def IsEntryLine (text : List Char) : Prop :=
  text = [] ∨ ∃ tail, text = ' ' :: ' ' :: '-' :: ' ' :: tail

/-- The beginning of an entry's line is not cut. -/
theorem IsEntryLine.cropped {text shown : List Char} (isEntryLine : IsEntryLine text)
    (cropped : Cropped 0 text shown) : IsEntryLine shown := by
  rcases isEntryLine with rfl | ⟨tail, rfl⟩
  · exact .inl cropped.eq_nil
  · obtain ⟨behind, rfl, -⟩ :=
      cropped.exists_front (show '\n' ∉ [' ', ' ', '-', ' '] by decide) (by decide)
    exact .inr ⟨behind, rfl⟩

namespace Token

variable {since mark : Mark} {fuel : Nat} {style : QuoteStyle}

/-- What is read of a scalar that begins in a line is not a certain unbroken text, for it is
broken or shorter, and ends on a later line. -/
structure Spoils (text : List Char) (line : Nat) (read : List CodePoint × Cursor) : Prop where
  shorter : ¬IsBroken read.1 → read.1.length < text.length
  later : EndsFrom (line + 1) read

theorem IsBroken.spoils {text : List Char} {line : Nat} {read : List CodePoint × Cursor}
    (broken : IsBroken read.1) (ends : EndsFrom (line + 1) read) : Spoils text line read :=
  ⟨fun whole => absurd broken whole, ends⟩

/-- Some code points in front take nothing away. -/
theorem IsBroken.append {codes : List CodePoint} (broken : IsBroken codes)
    (front : List CodePoint) : IsBroken (front ++ codes) := by
  obtain ⟨code, member, blank⟩ := broken
  exact ⟨code, List.mem_append_right _ member, blank⟩

/-- Digits of an escape that are cut off are missed. -/
theorem exists_escape_error (since mark : Mark) {letter : Char} {width : Nat}
    (listed : (letter, width) ∈ codeEscapes) {digits : List Char} (short : digits.length < width)
    {c : Char} (noDigit : isHexDigit c = false) (rest : List Char) :
    ∃ error, escape since ⟨mark, letter :: (digits ++ c :: rest)⟩ = .error error := by
  have lookups := lookup_of_mem_codeEscapes listed
  have member : c ∈ (digits ++ c :: rest ++ [endOfText]).take width := by
    obtain ⟨room, rfl⟩ := Nat.exists_eq_add_of_lt short
    rw [List.append_assoc, Nat.add_assoc, List.take_length_add_append]
    simp
  obtain ⟨found, isFound⟩ : ∃ found,
      ((digits ++ c :: rest ++ [endOfText]).take width).find? (fun d => !isHexDigit d) =
        some found := by
    rw [← Option.isSome_iff_exists, List.find?_isSome]
    exact ⟨c, member, by simp [noDigit]⟩
  simp only [escape, Cursor.peek_cons, lookups, Cursor.advance_cons, isFound]
  exact ⟨_, rfl⟩

/-- A character in front is part of the text and of what is read. -/
theorem Spoils.cons {text : List Char} {line later : Nat} {read : List CodePoint × Cursor}
    (spoils : Spoils text later read) (order : line ≤ later) (c : Char) :
    Spoils (c :: text) line (.char c :: read.1, read.2) :=
  ⟨fun whole => Nat.succ_lt_succ (spoils.shorter fun broken => whole (broken.append [.char c])),
    Nat.le_trans (Nat.succ_le_succ order) spoils.later⟩

/-- A line that is cut in front of a part spoils the text. -/
theorem gives_spoils_lineEnd {space : List Char} (blank : space = [] ∨ space = [' '])
    (text rest : List Char) :
    Gives (quotedContent style since (fuel + 1) ⟨mark, space ++ '\n' :: rest⟩)
      (Spoils text mark.line) :=
  fun read whole => have lineEnd := gives_lineEnd_quotedContent blank mark rest read whole
    IsBroken.spoils lineEnd.1 lineEnd.2

/-- If the text is spoiled behind a character that stands for itself, it is spoiled. -/
theorem gives_spoils_literal {c : Char} {text rest : List Char} (isLiteral : IsLiteral style c)
    (behind : Gives (quotedContent style since fuel ⟨mark.after c, rest⟩)
      (Spoils text (mark.after c).line)) :
    Gives (quotedContent style since (fuel + 1) ⟨mark, c :: rest⟩)
      (Spoils (c :: text) mark.line) := by
  rw [quotedContent_cons _ isLiteral]
  exact behind.map fun read spoils => spoils.cons (mark.line_le_after c) c

/-- Between single quotes, a line that is cut spoils the text. -/
theorem gives_spoils_single {text rest shown : List Char} {column : Nat}
    (unbroken : Unbroken text) (noEnd : endOfText ∉ text) (noQuote : '\'' ∉ text)
    (cropped : Cropped column (text ++ '\'' :: '\n' :: rest) shown)
    (enough : shown.length < fuel) :
    (∃ behind, shown = text ++ '\'' :: '\n' :: behind ∧ Cropped 0 rest behind) ∨
      Gives (quotedContent .single since fuel ⟨mark, shown⟩) (Spoils text mark.line) := by
  obtain ⟨less, rfl⟩ := Nat.exists_eq_succ_of_ne_zero (Nat.ne_of_gt (Nat.zero_lt_of_lt enough))
  induction text generalizing column shown less mark with
  | nil =>
      rcases cropped.head_cases (by decide) with
        ⟨closed, rfl, onward⟩ | ⟨space, behind, blank, rfl⟩
      · obtain ⟨behind, rfl, others⟩ := onward.exists_newline
        exact .inl ⟨behind, rfl, others⟩
      · exact .inr (gives_spoils_lineEnd blank _ _)
  | cons c others inductionHypothesis =>
      rw [List.mem_cons, not_or] at noEnd noQuote
      have inside : c ≠ '\n' := Text.ne_of_blank unbroken.head _ rfl
      have isLiteral : IsLiteral .single c :=
        ⟨Ne.symm noQuote.1, (fun double => by cases double), isSpaceOrTab_of_visible unbroken.head,
          isBreakOrEnd_of_visible unbroken.head (Ne.symm noEnd.1)⟩
      rcases cropped.head_cases inside with ⟨behind, rfl, onward⟩ | ⟨space, behind, blank, rfl⟩
      · rw [List.length_cons] at enough
        obtain ⟨least, rfl⟩ := Nat.exists_eq_add_of_le' (show 1 ≤ less by omega)
        rcases inductionHypothesis unbroken.tail noEnd.2 noQuote.2 onward least (by omega) with
          ⟨behind, rfl, others⟩ | gives
        · exact .inl ⟨behind, rfl, others⟩
        · exact .inr (gives_spoils_literal isLiteral gives)
      · exact .inr (gives_spoils_lineEnd blank _ _)

/-- A shorter text that is spoiled later on spoils a longer one. -/
theorem Spoils.mono {short text : List Char} {line later : Nat} {read : List CodePoint × Cursor}
    (spoils : Spoils short later read) (order : line ≤ later)
    (shorter : short.length ≤ text.length) : Spoils text line read :=
  ⟨fun whole => Nat.lt_of_lt_of_le (spoils.shorter whole) shorter,
    Nat.le_trans (Nat.succ_le_succ order) spoils.later⟩

theorem newline_not_mem_escape (c : Char) : '\n' ∉ Presentation.escape c := by
  intro member
  have noEscape := Presentation.needsEscape_of_mem_escape member
  cases noEscape

/-- Behind the first line of content between double quotes stands either what stands behind
the scalar, or further content on a line of its own. -/
theorem DoubleQuoted.behind_line {content text rest more after : List Char}
    (isContent : DoubleQuoted content text) (unbroken : Unbroken text) (noNewline : '\n' ∉ more)
    (same : content ++ '"' :: '\n' :: rest = more ++ '\n' :: after) :
    after = rest ∨ ∃ further others, DoubleQuoted further others ∧ Unbroken others ∧
      after = List.replicate Presentation.indentation ' ' ++ (further ++ '"' :: '\n' :: rest) ∧
      further.length < content.length ∧ others.length ≤ text.length := by
  induction isContent generalizing more with
  | nil =>
      obtain ⟨others, rfl, onward⟩ :=
        Text.exists_of_append_newline (show '\n' ∉ ['"'] by decide) same
      rw [List.mem_append, not_or] at noNewline
      exact .inl (Text.eq_of_newline_eq noNewline.2 onward).2
  | @escaped c content text behind inductionHypothesis =>
      rw [List.append_assoc] at same
      obtain ⟨others, rfl, onward⟩ := Text.exists_of_append_newline (newline_not_mem_escape c) same
      rw [List.mem_append, not_or] at noNewline
      refine (inductionHypothesis unbroken.tail noNewline.2 onward).imp_right ?_
      rintro ⟨further, others, isFurther, unbrokenOthers, rfl, less, fewer⟩
      exact ⟨further, others, isFurther, unbrokenOthers, rfl,
        by rw [List.length_append]; omega, Nat.le_succ_of_le fewer⟩
  | @literal c content text plain behind inductionHypothesis =>
      have inside : '\n' ∉ [c] := by
        simpa using (Text.ne_of_blank unbroken.head '\n' rfl).symm
      obtain ⟨others, rfl, onward⟩ := Text.exists_of_append_newline inside same
      rw [List.mem_append, not_or] at noNewline
      refine (inductionHypothesis unbroken.tail noNewline.2 onward).imp_right ?_
      rintro ⟨further, others, isFurther, unbrokenOthers, rfl, less, fewer⟩
      exact ⟨further, others, isFurther, unbrokenOthers, rfl, Nat.lt_succ_of_lt less,
        Nat.le_succ_of_le fewer⟩
  | @softBreak content text behind _ =>
      obtain ⟨others, rfl, onward⟩ :=
        Text.exists_of_append_newline (show '\n' ∉ ['\\'] by decide) same
      rw [List.mem_append, not_or] at noNewline
      obtain ⟨-, rfl⟩ := Text.eq_of_newline_eq noNewline.2 onward
      refine .inr ⟨content, text, behind, unbroken, by simp, ?_, Nat.le_refl _⟩
      simp only [Presentation.softBreak, List.length_append, List.length_cons]
      omega

/-- Content between double quotes begins with no white space if the beginning of its line is
not cut. -/
theorem DoubleQuoted.head_cropped {content text rest shown : List Char} {column : Nat}
    (isContent : DoubleQuoted content text) (unbroken : Unbroken text)
    (early : column < Text.safeColumns)
    (cropped : Cropped column (content ++ '"' :: '\n' :: rest) shown) :
    ∀ c ∈ shown.head?, isSpaceOrTab c = false ∧ isBreak c = false := by
  rw [cropped.head?_eq early]
  exact isContent.head unbroken _

/-- A line break behind a backslash takes nothing away. -/
theorem gives_softBreak {property : List CodePoint × Cursor → Prop} {rest : List Char}
    (settled : ∀ c ∈ rest.head?, isSpaceOrTab c = false ∧ isBreak c = false)
    (gives : Gives (quotedContent .double since fuel ⟨mark.behind Presentation.softBreak, rest⟩)
      property) :
    Gives (quotedContent .double since (fuel + 1) ⟨mark, Presentation.softBreak ++ rest⟩)
      property := by
  have escaped := escape_lineBreak since (mark.after '\\')
    (show 0 < Presentation.indentation by decide) settled
  rw [Presentation.softBreak, List.cons_append, quotedContent_backslash, escaped]
  exact gives.map fun read holds => holds

/-- The dash of a further entry and the space behind it break the scalar. -/
theorem gives_isBroken_dash (tail : List Char) :
    Gives (quotedContent .double since (fuel + 2) ⟨mark, '-' :: ' ' :: tail⟩) fun read =>
      IsBroken read.1 ∧ EndsFrom mark.line read := by
  have isLiteral : IsLiteral .double '-' := ⟨by decide, fun _ => by decide, rfl, rfl⟩
  have broken : Gives (quotedContent .double since (fuel + 2) ⟨mark, '-' :: ' ' :: tail⟩)
      fun read => IsBroken read.1 := by
    rw [quotedContent_cons _ isLiteral]
    exact (gives_isBroken_quotedContent (.inl rfl)).map fun read broken => broken.append [.char '-']
  exact fun read whole => ⟨broken read whole, gives_quotedContent _ _ _ _ read whole⟩

/-- If the last line is cut behind a backslash, the text is spoiled. -/
theorem gives_spoils_entryLine {rest : List Char} (isEntryLine : IsEntryLine rest)
    (text : List Char) :
    Gives (quotedContent .double since (fuel + 3) ⟨mark, '\\' :: '\n' :: rest⟩)
      (Spoils text mark.line) := by
  rw [quotedContent_backslash]
  rcases isEntryLine with rfl | ⟨tail, rfl⟩
  · have atEnd : escape since ⟨mark.after '\\', ['\n']⟩ =
        .ok ([], ⟨(mark.after '\\').after '\n', []⟩) := rfl
    rw [atEnd]
    exact Gives.error _ _
  · have settled : ∀ c ∈ ('-' :: ' ' :: tail).head?,
        isSpaceOrTab c = false ∧ isBreak c = false := by
      simp [isSpaceOrTab, isBreak]
    have escaped := escape_lineBreak since (mark.after '\\') (show 0 < 2 by decide) settled
    have further : mark.line + 1 ≤
        ((mark.after '\\').behind ('\n' :: List.replicate 2 ' ')).line :=
      Nat.le_trans (Nat.succ_le_succ (mark.line_le_after '\\'))
        (Mark.line_lt_line_behind _ (by simp))
    rw [show '\n' :: ' ' :: ' ' :: '-' :: ' ' :: tail =
      '\n' :: List.replicate 2 ' ' ++ '-' :: ' ' :: tail from rfl, escaped]
    exact (gives_isBroken_dash tail).map fun read holds =>
      holds.1.spoils (Nat.le_trans further holds.2)

/-- Where an escape may be cut: in front of it, behind its backslash, or among its digits. -/
theorem escape_cut_cases {c : Char} {kept lost : List Char}
    (same : Presentation.escape c = kept ++ lost) (isCut : lost ≠ []) :
    kept = [] ∨ kept = ['\\'] ∨ ∃ letter width digits, (letter, width) ∈ codeEscapes ∧
      digits.length < width ∧ kept = '\\' :: letter :: digits := by
  have positive := List.length_pos_iff.2 isCut
  match kept with
  | [] => exact .inl rfl
  | [d] =>
      obtain ⟨digits, escaped, -, -⟩ := exists_escape .zero c
      rw [escaped] at same
      obtain ⟨rfl, -⟩ := List.cons.inj same
      exact .inr (.inl rfl)
  | d :: e :: digits =>
      rcases escape_cases c with ⟨letter, -, shape⟩ | ⟨letter, width, listed, fits, shape⟩
      · have length := congrArg List.length (shape.symm.trans same)
        simp only [List.length_append, List.length_cons, List.length_nil] at length
        omega
      · obtain ⟨rfl, inner⟩ := List.cons.inj (shape.symm.trans same)
        obtain ⟨rfl, hexes⟩ := List.cons.inj inner
        have length := congrArg List.length hexes
        rw [Presentation.length_upperHexDigits (pos_of_mem_codeEscapes listed) fits,
          List.append_eq, List.length_append] at length
        exact .inr (.inr ⟨letter, width, digits, listed, by omega, rfl⟩)

/-- If an escape is cut behind its backslash and a space is shown for the rest of the line, the
text is spoiled. -/
theorem gives_spoils_space (text rest : List Char) :
    Gives (quotedContent .double since (fuel + 2) ⟨mark, '\\' :: ' ' :: '\n' :: rest⟩)
      (Spoils text mark.line) := by
  have escaped : escape since ⟨mark.after '\\', ' ' :: '\n' :: rest⟩ =
      .ok ([.char ' '], ⟨(mark.after '\\').after ' ', '\n' :: rest⟩) := rfl
  have order := Nat.le_trans (mark.line_le_after '\\') ((mark.after '\\').line_le_after ' ')
  rw [quotedContent_backslash, escaped]
  refine (gives_lineEnd_quotedContent (.inl rfl) _ rest).map fun read lineEnd => ?_
  exact (lineEnd.1.append [.char ' ']).spoils (Nat.le_trans (Nat.succ_le_succ order) lineEnd.2)

/-- If an escape is cut among its digits, there is an error. -/
theorem gives_spoils_digits {letter : Char} {width : Nat}
    (listed : (letter, width) ∈ codeEscapes) {digits space : List Char}
    (short : digits.length < width) (blank : space = [] ∨ space = [' ']) (text rest : List Char) :
    Gives (quotedContent .double since (fuel + 1)
      ⟨mark, '\\' :: letter :: digits ++ (space ++ '\n' :: rest)⟩) (Spoils text mark.line) := by
  obtain ⟨c, others, same, noDigit⟩ :
      ∃ c others, space ++ '\n' :: rest = c :: others ∧ isHexDigit c = false := by
    rcases blank with rfl | rfl
    · exact ⟨_, _, rfl, rfl⟩
    · exact ⟨_, _, rfl, rfl⟩
  obtain ⟨error, failed⟩ :=
    exists_escape_error since (mark.after '\\') listed short noDigit others
  rw [same, List.cons_append, List.cons_append, quotedContent_backslash, failed]
  exact Gives.error _ _

/-- If the text is spoiled behind an escape, it is spoiled. -/
theorem gives_spoils_escaped {c : Char} {text rest : List Char}
    (behind : Gives (quotedContent .double since fuel ⟨mark.behind (Presentation.escape c), rest⟩)
      (Spoils text (mark.behind (Presentation.escape c)).line)) :
    Gives (quotedContent .double since (fuel + 1) ⟨mark, Presentation.escape c ++ rest⟩)
      (Spoils (c :: text) mark.line) := by
  obtain ⟨digits, shape, -, reads⟩ := exists_escape since c
  rw [shape] at behind ⊢
  rw [List.cons_append, quotedContent_backslash, reads]
  refine behind.map fun read spoils => spoils.cons ?_ c
  rw [Mark.line_behind]
  exact Nat.le_add_right ..

/-- If an escape is cut behind its backslash, the text is spoiled: what stands on the next line
is shorter. -/
theorem gives_spoils_backslash {c : Char} {content text rest more after space line : List Char}
    (isContent : DoubleQuoted content text) (unbroken : Unbroken text)
    (isEntryLine : IsEntryLine rest) (noNewline : '\n' ∉ more)
    (same : content ++ '"' :: '\n' :: rest = more ++ '\n' :: after)
    (blank : space = [] ∨ space = [' ']) (nextLine : Cropped 0 after line)
    (enough : (space ++ '\n' :: line).length < fuel)
    (onward : ∀ {further others shown : List Char}, DoubleQuoted further others →
      Unbroken others → further.length < content.length →
        Cropped Presentation.indentation (further ++ '"' :: '\n' :: rest) shown →
          shown.length < fuel →
            (∃ behind, shown = further ++ '"' :: '\n' :: behind ∧ Cropped 0 rest behind) ∨
              Gives (quotedContent .double since fuel ⟨mark.behind Presentation.softBreak, shown⟩)
                (Spoils others (mark.behind Presentation.softBreak).line)) :
    Gives (quotedContent .double since (fuel + 1) ⟨mark, '\\' :: (space ++ '\n' :: line)⟩)
      (Spoils (c :: text) mark.line) := by
  have order := mark.line_le_behind Presentation.softBreak
  rw [List.length_append, List.length_cons] at enough
  rcases blank with rfl | rfl
  · rcases isContent.behind_line unbroken noNewline same with
      rfl | ⟨further, others, isFurther, unbrokenOthers, rfl, less, fewer⟩
    · obtain ⟨least, rfl⟩ := Nat.exists_eq_add_of_le' (show 2 ≤ fuel by omega)
      exact gives_spoils_entryLine (isEntryLine.cropped nextLine) _
    · obtain ⟨shown, rfl, inner⟩ :=
        nextLine.exists_front (by decide : '\n' ∉ List.replicate Presentation.indentation ' ')
          (by decide)
      have settled := isFurther.head_cropped unbrokenOthers (by decide) inner
      have room : shown.length < fuel := by
        rw [List.length_append] at enough
        omega
      refine gives_softBreak settled ?_
      rcases onward isFurther unbrokenOthers less inner room with ⟨behind, rfl, -⟩ | gives
      · have later : mark.line + 1 ≤ (mark.behind Presentation.softBreak).line :=
          mark.line_lt_line_behind (by decide)
        rw [List.length_append] at room
        rw [quotedContent_double since isFurther unbrokenOthers _ _ _ (by omega)]
        exact Gives.ok ⟨fun _ => by simpa using Nat.lt_succ_of_le fewer,
          Nat.le_trans later (Mark.line_le_behind ..)⟩
      · exact fun read whole =>
          (gives read whole).mono order (Nat.le_succ_of_le fewer)
  · obtain ⟨least, rfl⟩ := Nat.exists_eq_add_of_le' (show 1 ≤ fuel by omega)
    exact gives_spoils_space _ _

/-- Between double quotes, a line that is cut spoils the text. -/
theorem gives_spoils_double {content text rest shown : List Char} {column : Nat}
    (isContent : DoubleQuoted content text) (unbroken : Unbroken text)
    (isEntryLine : IsEntryLine rest)
    (cropped : Cropped column (content ++ '"' :: '\n' :: rest) shown)
    (enough : shown.length < fuel) :
    (∃ behind, shown = content ++ '"' :: '\n' :: behind ∧ Cropped 0 rest behind) ∨
      Gives (quotedContent .double since fuel ⟨mark, shown⟩) (Spoils text mark.line) := by
  -- Behind a cut the scalar may go on with content further on, so the induction is on the length.
  induction isSize : content.length using Nat.strongRecOn
    generalizing content text shown column fuel mark with
  | ind size inductionHypothesis =>
  obtain ⟨less, rfl⟩ := Nat.exists_eq_succ_of_ne_zero (Nat.ne_of_gt (Nat.zero_lt_of_lt enough))
  cases isContent with
  | nil =>
      rcases cropped.head_cases (by decide) with
        ⟨closed, rfl, onward⟩ | ⟨space, behind, blank, rfl⟩
      · obtain ⟨behind, rfl, others⟩ := onward.exists_newline
        exact .inl ⟨behind, rfl, others⟩
      · exact .inr (gives_spoils_lineEnd blank _ _)
  | @literal c content text plain behind =>
      have inside : c ≠ '\n' := Text.ne_of_blank unbroken.head _ rfl
      rcases cropped.head_cases inside with ⟨shown, rfl, onward⟩ | ⟨space, behind, blank, rfl⟩
      · have room : shown.length < less := by simpa using enough
        rcases inductionHypothesis content.length (by simp [← isSize]) behind unbroken.tail onward
          room rfl with ⟨others, rfl, last⟩ | gives
        · exact .inl ⟨others, rfl, last⟩
        · exact .inr (gives_spoils_literal (isLiteral_double unbroken.head plain) gives)
      · exact .inr (gives_spoils_lineEnd blank _ _)
  | @softBreak content text behind =>
      rw [Presentation.softBreak, List.append_assoc, List.cons_append, List.cons_append] at cropped
      rcases cropped.head_cases (by decide) with ⟨line, rfl, onward⟩ | ⟨space, behind, blank, rfl⟩
      · obtain ⟨next, rfl, nextLine⟩ := onward.exists_newline
        obtain ⟨shown, rfl, inner⟩ :=
          nextLine.exists_front (by decide : '\n' ∉ List.replicate Presentation.indentation ' ')
            (by decide)
        have settled := behind.head_cropped unbroken (by decide) inner
        have room : shown.length < less := by
          simp only [List.length_cons, List.length_append] at enough
          omega
        have shorter : content.length < size := by
          rw [← isSize]
          simp only [Presentation.softBreak, List.length_cons, List.length_append]
          omega
        rcases inductionHypothesis content.length shorter behind unbroken inner room rfl with
          ⟨others, rfl, last⟩ | gives
        · exact .inl ⟨others, by simp [Presentation.softBreak], last⟩
        · refine .inr (gives_softBreak settled fun read whole => (gives read whole).mono ?_ ?_)
          · exact mark.line_le_behind _
          · exact Nat.le_refl _
      · exact .inr (gives_spoils_lineEnd blank _ _)
  | @escaped c content text behind =>
      rw [List.append_assoc] at cropped
      have positive := length_escape_pos c
      rcases cropped.split (newline_not_mem_escape c) with
        ⟨shown, rfl, onward⟩ | ⟨kept, lost, more, after, same, isCut, isWhole, noNewline, cutAfter⟩
      · have room : shown.length < less := by
          rw [List.length_append] at enough
          omega
        have shorter : content.length < size := by
          rw [← isSize, List.length_append]
          omega
        rcases inductionHypothesis content.length shorter behind unbroken.tail onward room rfl with
          ⟨others, rfl, last⟩ | gives
        · exact .inl ⟨others, by rw [List.append_assoc], last⟩
        · exact .inr (gives_spoils_escaped gives)
      · obtain ⟨space, line, blank, rfl, nextLine⟩ := cutAfter.left
        right
        rcases escape_cut_cases same isCut with
          rfl | rfl | ⟨letter, width, digits, listed, short, rfl⟩
        · exact gives_spoils_lineEnd blank _ _
        · refine gives_spoils_backslash behind unbroken.tail isEntryLine noNewline isWhole blank
            nextLine (by simpa using enough) fun isFurther unbrokenFurther fewer inner room => ?_
          refine inductionHypothesis _ ?_ isFurther unbrokenFurther inner room rfl
          rw [← isSize, List.length_append]
          omega
        · exact gives_spoils_digits listed short blank _ _

end Token

end Roster.Yaml
