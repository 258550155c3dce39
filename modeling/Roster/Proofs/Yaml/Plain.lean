import Roster.Proofs.Yaml.Character
import Roster.Proofs.Yaml.Cursor
import Roster.Yaml.Presentation
import Roster.Yaml.Token.Plain

/-!
# Plain scalars read back

A plain scalar is read up to the first character that does not go on with it, and
ends for good at a line that is not indented enough. Whether a character goes on
depends on the next one, so a text is taken together with what stands behind it.
A text that may be written plain meets all these conditions.
-/

namespace Roster.Yaml

open Roster.Text (Unbroken)

/-- Whether every character of a text goes on with a plain scalar in front of the
next one, with a further character behind the text. -/
def Continues (version : Version) (inFlow : Bool) (next : Char) : List Char → Prop
  | [] => True
  | c :: others =>
      continuesPlain version inFlow c (others.headD next) = true ∧
        Continues version inFlow next others

/-- The characters with which no plain scalar begins, one by one. -/
theorem isOpeningIndicator_iff {c : Char} :
    Presentation.isOpeningIndicator c = true ↔ c ∈ "\x7b\x7d#,[]&*!|>'\"%@`".toList := by
  simp [Presentation.isOpeningIndicator, String.contains_char_eq, or_assoc]

/-- The other indicators may begin a plain scalar in front of a visible character. -/
theorem isIndicator_iff {c : Char} :
    isIndicator c = true ↔ c ∈ ['-', '?', ':'] ∨ Presentation.isOpeningIndicator c = true := by
  rw [isOpeningIndicator_iff]
  simp [isIndicator, isFlowIndicator, String.contains_char_eq]
  grind

/-- The texts that read back if they are written plain in block context. -/
structure IsPlain (text : List Char) : Prop where
  nonempty : text ≠ []
  unbroken : Unbroken text
  inside : endOfText ∉ text
  noMarker : Presentation.startsLikeMarker text = false
  noOpening : ∀ c ∈ text.head?, Presentation.isOpeningIndicator c = false
  notLone : Presentation.isLoneIndicator text = false
  noColon : text.getLast? ≠ some ':'
  noMark : '\ufeff' ∉ text

/-- A text that may be written plain reads back. -/
theorem isPlain_of_allowsPlain {text : List Char} (nonempty : text ≠ [])
    (unbroken : Unbroken text) (allowed : Presentation.allowsPlain text = true) :
    IsPlain text := by
  simp only [Presentation.allowsPlain, Bool.and_eq_true, Bool.not_eq_true',
    bne_iff_ne] at allowed
  obtain ⟨⟨⟨⟨⟨noMarker, noOpening⟩, notLone⟩, noColon⟩, noEscape⟩, -⟩ := allowed
  have absent : ∀ c, Presentation.needsEscape c = true → c ∉ text := fun c escaped member =>
    (List.any_eq_false.1 noEscape) c member escaped
  refine ⟨nonempty, unbroken, absent endOfText (by decide), noMarker, ?_, notLone, noColon,
    absent '\ufeff' (by decide)⟩
  intro c isHead
  rw [Option.mem_def] at isHead
  rw [isHead] at noOpening
  simpa using noOpening

/-- The texts with which a plain scalar begins in block context. Whether it goes on to their
end is decided by what stands there. -/
structure BeginsPlain (text : List Char) : Prop where
  nonempty : text ≠ []
  unbroken : Unbroken text
  inside : endOfText ∉ text
  noMarker : Presentation.startsLikeMarker text = false
  noOpening : ∀ c ∈ text.head?, Presentation.isOpeningIndicator c = false
  notLone : Presentation.isLoneIndicator text = false
  noMark : '\ufeff' ∉ text

theorem IsPlain.beginsPlain {text : List Char} (isPlain : IsPlain text) : BeginsPlain text :=
  { isPlain with }

namespace BeginsPlain

/-- Every character of a plain text is visible and not the end. -/
theorem endsIndicator_eq_false {text : List Char} (beginsPlain : BeginsPlain text) {c : Char}
    (member : c ∈ text) : endsIndicator c = false :=
  endsIndicator_of_visible (beginsPlain.unbroken c member)
    fun same => beginsPlain.inside (same ▸ member)

/-- An indicator that begins a plain text is not set off. -/
theorem not_setOff {c : Char} {others : List Char} (beginsPlain : BeginsPlain (c :: others))
    (indicator : c ∈ ['-', '?', ':']) (next : Char) :
    endsIndicator (others.headD next) = false := by
  cases others with
  | nil =>
      have lone := beginsPlain.notLone
      have isOne : c = '-' ∨ c = '?' ∨ c = ':' := by simpa using indicator
      rcases isOne with rfl | rfl | rfl <;> simp [Presentation.isLoneIndicator] at lone
  | cons d more => exact beginsPlain.endsIndicator_eq_false (by simp)

/-- A plain text begins with a character that begins a plain scalar. -/
theorem begins {c : Char} {others : List Char} (beginsPlain : BeginsPlain (c :: others))
    (version : Version) (next : Char) :
    Yaml.beginsPlain version false c (others.headD next) = true := by
  have noOpening := beginsPlain.noOpening c rfl
  have visible : isSeparation c = false := isSeparation_of_visible
    (beginsPlain.unbroken c List.mem_cons_self) fun same => beginsPlain.inside (by simp [same])
  by_cases indicator : c ∈ ['-', '?', ':']
  · have notSetOff := beginsPlain.not_setOff indicator next
    have isOne : c = '-' ∨ c = '?' ∨ c = ':' := by simpa using indicator
    rcases isOne with rfl | rfl | rfl <;> simp only [Yaml.beginsPlain, notSetOff] <;> simp
  · have noIndicator : isIndicator c = false := by
      rw [Bool.eq_false_iff, Ne, isIndicator_iff, noOpening]
      simpa using indicator
    simp [Yaml.beginsPlain, visible, noIndicator]

/-- No document marker begins where a plain text begins. -/
theorem not_atMarker {text : List Char} (beginsPlain : BeginsPlain text) (mark : Mark) {next : Char}
    (noDash : next ≠ '-') (noPoint : next ≠ '.') (rest : List Char) :
    Cursor.atMarker ⟨mark, text ++ next :: rest⟩ '-' = false ∧
      Cursor.atMarker ⟨mark, text ++ next :: rest⟩ '.' = false := by
  have noMarker := beginsPlain.noMarker
  match text, beginsPlain.nonempty with
  | [c], _ => simp [Cursor.atMarker, Cursor.peekAt, noDash, noPoint]
  | [c, d], _ => simp [Cursor.atMarker, Cursor.peekAt, noDash, noPoint]
  | c :: d :: e :: others, _ =>
      simp [Presentation.startsLikeMarker] at noMarker
      simp [Cursor.atMarker, Cursor.peekAt]
      grind

/-- A plain text does not begin like a comment. -/
theorem noComment {text : List Char} (beginsPlain : BeginsPlain text) : text.head? ≠ some '#' := by
  intro isHead
  have noOpening := beginsPlain.noOpening '#' isHead
  rw [Bool.eq_false_iff, Ne, isOpeningIndicator_iff] at noOpening
  exact noOpening (by decide)

/-- A plain text goes on up to its end in front of a visible character, and in any case if
it does not end in a colon. -/
theorem continues {text : List Char} (beginsPlain : BeginsPlain text) (version : Version)
    {next : Char} (ends : endsIndicator next = false ∨ text.getLast? ≠ some ':') :
    Continues version false next text := by
  have noEnd := fun c (member : c ∈ text) => beginsPlain.endsIndicator_eq_false member
  clear beginsPlain
  induction text with
  | nil => trivial
  | cons c others inductionHypothesis =>
      have visible : endsIndicator c = false := noEnd c List.mem_cons_self
      refine ⟨?_, ?_⟩
      · by_cases colon : c = ':'
        · have nextVisible : endsIndicator (others.headD next) = false := by
            cases others with
            | nil => exact ends.resolve_right fun other => other (by rw [colon]; rfl)
            | cons d more => exact noEnd d (by simp)
          rw [continuesPlain, colon, nextVisible]
          rfl
        · simp [continuesPlain, visible, colon]
      · refine inductionHypothesis ?_ fun d member => noEnd d (List.mem_cons_of_mem _ member)
        cases others with
        | nil => exact .inr (by simp)
        | cons d more => exact ends.imp_right fun other => by simpa using other

end BeginsPlain

namespace IsPlain

/-- A plain text goes on up to its end, whatever follows. -/
theorem continues {text : List Char} (isPlain : IsPlain text) (version : Version) (next : Char) :
    Continues version false next text :=
  isPlain.beginsPlain.continues version (.inr isPlain.noColon)

/-- A plain text does not begin like a comment. -/
theorem noComment {text : List Char} (isPlain : IsPlain text) : text.head? ≠ some '#' :=
  isPlain.beginsPlain.noComment

end IsPlain

namespace Token

/-- No plain scalar goes on with what stands at the beginning of a text. -/
def StopsPlain (version : Version) (inFlow : Bool) (rest : List Char) : Prop :=
  ∀ c others, rest = c :: others →
    continuesPlain version inFlow c (others.headD endOfText) = false

theorem stopsPlain_nil (version : Version) (inFlow : Bool) : StopsPlain version inFlow [] := by
  intro c others same
  cases same

theorem stopsPlain_cons {version : Version} {inFlow : Bool} {c : Char} {rest : List Char}
    (stops : continuesPlain version inFlow c (rest.headD endOfText) = false) :
    StopsPlain version inFlow (c :: rest) := by
  rintro d others same
  obtain ⟨rfl, rfl⟩ := List.cons.inj same
  exact stops

/-- A run of a plain scalar goes up to the first character that does not go on
with it. -/
theorem plainRun_append {version : Version} {inFlow : Bool} (mark : Mark) {text rest : List Char}
    (continues : Continues version inFlow (rest.headD endOfText) text)
    (stops : StopsPlain version inFlow rest) :
    plainRun version inFlow mark (text ++ rest) = (text, ⟨mark.behind text, rest⟩) := by
  induction text generalizing mark with
  | nil =>
      cases rest with
      | nil => rfl
      | cons c others =>
          rw [List.nil_append, plainRun, stops c others rfl]
          rfl
  | cons d others inductionHypothesis =>
      have next : (others ++ rest).headD endOfText = others.headD (rest.headD endOfText) := by
        cases others <;> rfl
      rw [List.cons_append, plainRun, next, continues.1,
        inductionHypothesis (mark.after d) continues.2]
      rfl

/-- Indentation inside a plain scalar stands for nothing. -/
theorem plainBreaks_spaces (mark : Mark) (count fuel : Nat) {rest : List Char}
    (settled : ∀ c ∈ rest.head?, c ≠ ' ' ∧ isBreak c = false) :
    plainBreaks (count + fuel) ⟨mark, List.replicate count ' ' ++ rest⟩ =
      (some [], ⟨mark.behind (List.replicate count ' '), rest⟩) := by
  induction count generalizing mark with
  | zero =>
      rw [Nat.zero_add]
      cases fuel with
      | zero => rfl
      | succ less =>
          cases rest with
          | nil => rfl
          | cons c others =>
              obtain ⟨noSpace, noBreak⟩ := settled c rfl
              simp [plainBreaks, noSpace, noBreak]
  | succ count inductionHypothesis =>
      rw [Nat.add_right_comm, plainBreaks]
      exact inductionHypothesis (mark.after ' ')

/-- A newline and the indentation of the next line fold to a space, together with the spaces
in front of the newline. -/
theorem plainSpace_newline (mark : Mark) (trailing count : Nat) {rest : List Char}
    (settled : ∀ c ∈ rest.head?, c ≠ ' ' ∧ isBreak c = false)
    (noMarker : ∀ mark, Cursor.atDocumentMarker ⟨mark, List.replicate count ' ' ++ rest⟩ = false) :
    plainSpace ⟨mark,
        List.replicate trailing ' ' ++ '\n' :: (List.replicate count ' ' ++ rest)⟩ =
      ({ text := [' '], hasBreak := true },
        ⟨mark.behind (List.replicate trailing ' ' ++ '\n' :: List.replicate count ' '), rest⟩) := by
  have taken : Cursor.takeWhile
      ⟨mark, List.replicate trailing ' ' ++ '\n' :: (List.replicate count ' ' ++ rest)⟩ (· == ' ') =
        (List.replicate trailing ' ', ⟨mark.behind (List.replicate trailing ' '),
          '\n' :: (List.replicate count ' ' ++ rest)⟩) :=
    Cursor.takeWhile_append mark
      (fun c member => by rw [List.eq_of_mem_replicate member]; rfl) (by simp)
  let behind := mark.behind (List.replicate trailing ' ')
  have isNewline : Cursor.lineBreak ⟨behind, '\n' :: (List.replicate count ' ' ++ rest)⟩ =
      (['\n'], ⟨behind.after '\n', List.replicate count ' ' ++ rest⟩) := rfl
  have breaks := plainBreaks_spaces (behind.after '\n') count rest.length settled
  have length : (List.replicate count ' ' ++ rest).length = count + rest.length := by simp
  simp only [plainSpace, taken, Cursor.peek_cons]
  rw [if_pos (show isBreak '\n' = true from rfl), isNewline]
  simp only [noMarker, Bool.false_eq_true, if_false, length, breaks]
  rw [Mark.behind_append]
  rfl

/-- No white space behind a run ends the scalar there. -/
theorem plainSpace_of_visible (mark : Mark) {rest : List Char} (noSpace : rest.head? ≠ some ' ')
    (noBreak : isBreak (rest.headD endOfText) = false) :
    plainSpace ⟨mark, rest⟩ = ({ text := [], hasBreak := false }, ⟨mark, rest⟩) := by
  have noSpaces := Cursor.takeWhile_of_stop (· == ' ') mark rest fun c isHead => by
    rw [beq_eq_false_iff_ne]
    rintro rfl
    exact noSpace isHead
  have peek : isBreak (Cursor.peek ⟨mark, rest⟩) = false := noBreak
  simp [plainSpace, noSpaces, peek]

/-- A plain scalar of one run: what follows the run lets it end there. -/
theorem plainScalar_run {setting : PlainSetting} (mark : Mark) {text rest : List Char}
    (nonempty : text ≠ []) (noComment : text.head? ≠ some '#')
    (continues : Continues setting.version setting.inFlow (rest.headD endOfText) text)
    (stops : StopsPlain setting.version setting.inFlow rest)
    {space : PlainSpace} {behind : Cursor}
    (follows : plainSpace ⟨mark.behind text, rest⟩ = (space, behind))
    (ends : (space.text.isEmpty || behind.peek == '#' ||
      (!setting.inFlow && decide (behind.column < setting.least))) = true) :
    plainScalar setting ⟨mark, text ++ rest⟩ =
      { text, finish := mark.behind text, behind, endsWithBreak := space.hasBreak } := by
  cases text with
  | nil => exact absurd rfl nonempty
  | cons d others =>
      have run := plainRun_append mark continues stops
      have noHash : d ≠ '#' := fun same => noComment (by simp [same])
      have fuel : (d :: others ++ rest).length = (others ++ rest).length + 1 := rfl
      rw [plainScalar, fuel, plainRuns]
      rw [List.cons_append] at run
      simp only [List.cons_append, Cursor.peek_cons, beq_iff_eq, noHash, if_false, run,
        List.isEmpty_cons, Bool.false_eq_true, follows]
      rw [if_pos ends]
      rfl

/-- A plain scalar ends behind a line if the next one is not indented enough. Spaces at the end
of the line and the indentation of the next one are read with it. -/
theorem plainScalar_line (setting : PlainSetting) (inBlock : setting.inFlow = false)
    (trailing : Nat) {count : Nat} (shallow : count < setting.least) (mark : Mark)
    {text rest : List Char} (nonempty : text ≠ []) (noComment : text.head? ≠ some '#')
    (continues : ∀ next, Continues setting.version setting.inFlow next text)
    (settled : ∀ c ∈ rest.head?, c ≠ ' ' ∧ isBreak c = false)
    (noMarker : ∀ mark, Cursor.atDocumentMarker ⟨mark, List.replicate count ' ' ++ rest⟩ = false) :
    plainScalar setting ⟨mark, text ++
        (List.replicate trailing ' ' ++ '\n' :: (List.replicate count ' ' ++ rest))⟩ =
      { text, finish := mark.behind text
        behind := ⟨mark.behind
          (text ++ List.replicate trailing ' ' ++ '\n' :: List.replicate count ' '), rest⟩
        endsWithBreak := true } := by
  have stops : StopsPlain setting.version setting.inFlow
      (List.replicate trailing ' ' ++ '\n' :: (List.replicate count ' ' ++ rest)) := by
    cases trailing with
    | zero => exact stopsPlain_cons (by simp [continuesPlain, endsIndicator, endsContent])
    | succ less =>
        exact stopsPlain_cons (by simp [continuesPlain, endsIndicator, isSpaceOrTab])
  have follows := plainSpace_newline (mark.behind text) trailing count settled noMarker
  rw [← Mark.behind_append, ← List.append_assoc] at follows
  refine plainScalar_run mark nonempty noComment (continues _) stops follows ?_
  have column : Cursor.column ⟨mark.behind
      (text ++ List.replicate trailing ' ' ++ '\n' :: List.replicate count ' '), rest⟩ = count :=
    Mark.column_behind_newline mark _ count
  simp only [inBlock, column, shallow, Bool.not_false, decide_true, Bool.and_self, Bool.or_true]

/-- A plain scalar ends in front of a visible character that does not go on with it, and
at the end of the text. -/
theorem plainScalar_stop (setting : PlainSetting) (mark : Mark) {text rest : List Char}
    (nonempty : text ≠ []) (noComment : text.head? ≠ some '#')
    (continues : Continues setting.version setting.inFlow (rest.headD endOfText) text)
    (stops : StopsPlain setting.version setting.inFlow rest)
    (noSpace : rest.head? ≠ some ' ') (noBreak : isBreak (rest.headD endOfText) = false) :
    plainScalar setting ⟨mark, text ++ rest⟩ =
      { text, finish := mark.behind text, behind := ⟨mark.behind text, rest⟩
        endsWithBreak := false } :=
  plainScalar_run mark nonempty noComment continues stops
    (plainSpace_of_visible (mark.behind text) noSpace noBreak) rfl

end Token

end Roster.Yaml
