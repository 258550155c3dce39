import Roster.Proofs.Yaml.PlainKey

/-!
# Scalars that read back in any context

A quoted scalar ends at its closing quote, wherever it stands. So does a plain word, which
has none of the characters that mean something in one context only: it ends at the end of
the text, and inside a flow collection at an indicator. Such scalars are read alike in
block and in flow context.
-/

namespace Roster.Yaml

/-- The characters of plain words. -/
def isPlainWordCharacter (c : Char) : Bool :=
  c.isAlphanum || ['.', '_', '-', '/'].contains c

/-- The texts that read back in any context if they are written plain. -/
structure IsPlainWord (text : List Char) : Prop where
  begins : ∃ c others, text = c :: others ∧ c.isAlphanum = true
  inside : ∀ c ∈ text, isPlainWordCharacter c = true

/-- The characters of plain words are visible ones of ASCII. -/
theorem toNat_of_plainWordCharacter {c : Char} (isWord : isPlainWordCharacter c = true) :
    0x21 ≤ c.toNat ∧ c.toNat ≤ 0x7E := by
  have ranges : c.isAlphanum =
      (decide (65 ≤ c.val ∧ c.val ≤ 90) || (97 ≤ c.val && c.val ≤ 122) ||
        (48 ≤ c.val && c.val ≤ 57)) := rfl
  simp only [isPlainWordCharacter, ranges, Bool.or_eq_true, Bool.and_eq_true, decide_eq_true_eq,
    List.contains_eq_mem, List.mem_cons, List.not_mem_nil, or_false,
    UInt32.le_iff_toNat_le] at isWord
  have code : c.toNat = c.val.toNat := rfl
  rcases isWord with ((range | range) | range) | rfl | rfl | rfl | rfl
  · exact ⟨code ▸ Nat.le_trans (by decide) range.1, code ▸ Nat.le_trans range.2 (by decide)⟩
  · exact ⟨code ▸ Nat.le_trans (by decide) range.1, code ▸ Nat.le_trans range.2 (by decide)⟩
  · exact ⟨code ▸ Nat.le_trans (by decide) range.1, code ▸ Nat.le_trans range.2 (by decide)⟩
  all_goals decide

/-- The visible characters of ASCII are not blank. -/
theorem isBlank_of_visibleAscii {c : Char} (low : 0x21 ≤ c.toNat) (high : c.toNat ≤ 0x7E) :
    Text.isBlank c = false := by
  simp only [Text.isBlank, Bool.or_eq_false_iff, Bool.and_eq_false_iff, decide_eq_false_iff_not,
    beq_eq_false_iff_ne]
  omega

/-- A character of plain words is none of the others. -/
theorem ne_of_plainWordCharacter {c : Char} (isWord : isPlainWordCharacter c = true) (other : Char)
    (noWord : isPlainWordCharacter other = false) : c ≠ other := by
  rintro rfl
  rw [isWord] at noWord
  cases noWord

/-- A letter or a digit is none of the other characters. -/
theorem ne_of_isAlphanum {c : Char} (isLetter : c.isAlphanum = true) (other : Char)
    (noLetter : other.isAlphanum = false) : c ≠ other := by
  rintro rfl
  rw [isLetter] at noLetter
  cases noLetter

/-- A letter or a digit is not an indicator. -/
theorem isIndicator_of_isAlphanum {c : Char} (isLetter : c.isAlphanum = true) :
    isIndicator c = false := by
  rw [Bool.eq_false_iff, Ne, isIndicator_iff, isOpeningIndicator_iff, ← List.mem_append]
  intro member
  have noLetters : (['-', '?', ':'] ++ "\x7b\x7d#,[]&*!|>'\"%@`".toList).all
      (fun indicator => !indicator.isAlphanum) = true := by decide
  have noLetter := List.all_eq_true.1 noLetters c member
  rw [isLetter] at noLetter
  cases noLetter

/-- A plain scalar goes on with every character of plain words. -/
theorem continuesPlain_of_plainWordCharacter {c : Char} (isWord : isPlainWordCharacter c = true)
    (version : Version) (inFlow : Bool) (next : Char) :
    continuesPlain version inFlow c next = true := by
  have range := toNat_of_plainWordCharacter isWord
  have visible := endsIndicator_of_visible (isBlank_of_visibleAscii range.1 range.2)
    (ne_of_plainWordCharacter isWord endOfText rfl)
  have other := ne_of_plainWordCharacter isWord
  have noIndicator : isFlowIndicator c = false := by
    simp [isFlowIndicator, other ',' rfl, other '[' rfl, other ']' rfl, other '\x7b' rfl,
      other '\x7d' rfl]
  simp [continuesPlain, visible, noIndicator, other ':' rfl, other '?' rfl]

namespace IsPlainWord

variable {text : List Char}

/-- A plain word goes on up to its end, whatever follows. -/
theorem continues (isWord : IsPlainWord text) (version : Version) (inFlow : Bool) (next : Char) :
    Continues version inFlow next text := by
  have inside := isWord.inside
  clear isWord
  induction text with
  | nil => trivial
  | cons c others inductionHypothesis =>
      exact ⟨continuesPlain_of_plainWordCharacter (inside c List.mem_cons_self) ..,
        inductionHypothesis fun d member => inside d (List.mem_cons_of_mem _ member)⟩

/-- A character that is in no plain word is not in a plain word. -/
theorem not_mem (isWord : IsPlainWord text) (other : Char)
    (noWord : isPlainWordCharacter other = false) : other ∉ text :=
  fun member => ne_of_plainWordCharacter (isWord.inside other member) other noWord rfl

/-- A plain word can be written plain in block context. -/
theorem isPlain (isWord : IsPlainWord text) : IsPlain text := by
  have unbroken : Text.Unbroken text := fun c member =>
    have range := toNat_of_plainWordCharacter (isWord.inside c member)
    isBlank_of_visibleAscii range.1 range.2
  have noColon : text.getLast? ≠ some ':' := fun isLast =>
    isWord.not_mem ':' rfl (List.mem_of_getLast? isLast)
  have noEnd := isWord.not_mem endOfText rfl
  have noMark := isWord.not_mem '\ufeff' rfl
  obtain ⟨c, others, rfl, first⟩ := isWord.begins
  have other := ne_of_isAlphanum first
  refine ⟨by simp, unbroken, noEnd, ?_, ?_, ?_, noColon, noMark⟩
  · have dash : ('-' == c) = false := by simpa using (other '-' rfl).symm
    have point : ('.' == c) = false := by simpa using (other '.' rfl).symm
    simp [Presentation.startsLikeMarker, List.isPrefixOf, dash, point]
  · intro d isHead
    obtain rfl := Option.some.inj isHead
    have noIndicator := isIndicator_of_isAlphanum first
    rw [Bool.eq_false_iff, Ne, isIndicator_iff, not_or] at noIndicator
    exact Bool.eq_false_iff.2 noIndicator.2
  · simp [Presentation.isLoneIndicator, other '?' rfl, other ':' rfl, other '-' rfl]

end IsPlainWord

/-- A form in which a text may be written as a value in any context. -/
inductive Portable : List Char → List Char → Prop where
  | plain {text : List Char} (isWord : IsPlainWord text) : Portable text text
  | quoted (style : QuoteStyle) {content text : List Char}
      (reads : ∀ (mark : Mark) (rest : List Char), rest.head? ≠ some '\'' →
        Token.quotedScalar style ⟨mark, style.mark :: content ++ rest⟩ =
          .ok (String.ofList text, ⟨mark.behind (style.mark :: content), rest⟩)) :
      Portable (style.mark :: content) text

/-- A portable form is one for block context. -/
theorem Portable.written {form text : List Char} (isPortable : Portable form text) :
    Written form text := by
  cases isPortable with
  | plain isWord => exact .plain isWord.isPlain
  | quoted style reads => exact .quoted style reads

/-- Between single quotes every text without blanks is portable. -/
theorem portable_single {text : List Char} (unbroken : Text.Unbroken text)
    (noEnd : endOfText ∉ text) :
    Portable ('\'' :: Token.doubledQuotes text ++ ['\'']) text := by
  refine Portable.quoted .single fun mark rest closed => ?_
  have read := Token.quotedScalar_single unbroken noEnd mark closed
  simpa [QuoteStyle.mark] using read

/-- Between double quotes every text without blanks is portable. -/
theorem portable_double {content text : List Char} (isContent : Token.DoubleQuoted content text)
    (unbroken : Text.Unbroken text) : Portable ('"' :: content ++ ['"']) text := by
  refine Portable.quoted .double fun mark rest _ => ?_
  have read := Token.quotedScalar_double isContent unbroken mark rest
  simpa [QuoteStyle.mark] using read

/-- What ends a scalar in any form: the end of the text, or an indicator inside a flow
collection. -/
inductive EndsScalar (inFlow : Bool) : List Char → Prop where
  | nothing : EndsScalar inFlow []
  | indicator {c : Char} (isInside : inFlow = true) (isIndicator : isFlowIndicator c = true)
      (rest : List Char) : EndsScalar inFlow (c :: rest)

namespace EndsScalar

variable {inFlow : Bool} {rest : List Char}

/-- No plain scalar goes on where every scalar ends. -/
theorem stopsPlain (ends : EndsScalar inFlow rest) (version : Version) :
    Token.StopsPlain version inFlow rest := by
  cases ends with
  | nothing => exact Token.stopsPlain_nil version inFlow
  | @indicator c isInside isIndicator rest =>
      refine Token.stopsPlain_cons ?_
      have other : c ≠ ':' ∧ c ≠ '?' := by
        constructor <;> (rintro rfl; cases isIndicator)
      simp [continuesPlain, isInside, isIndicator, other]

/-- Where every scalar ends, there is no white space and no quote. -/
theorem head (ends : EndsScalar inFlow rest) :
    rest.head? ≠ some ' ' ∧ rest.head? ≠ some '\'' ∧ isBreak (rest.headD endOfText) = false := by
  cases ends with
  | nothing => decide
  | @indicator c _ isIndicator _ =>
      refine ⟨?_, ?_, ?_⟩
      · rintro same
        cases Option.some.inj same
        cases isIndicator
      · rintro same
        cases Option.some.inj same
        cases isIndicator
      · rw [isFlowIndicator] at isIndicator
        simp only [Bool.or_eq_true, beq_iff_eq] at isIndicator
        rcases isIndicator with (((rfl | rfl) | rfl) | rfl) | rfl <;> rfl

end EndsScalar

namespace Scan

variable {scan : Scan}

/-- A letter or a digit begins a plain scalar. -/
theorem fetchHere_alphanumeric {c : Char} {rest : List Char} (first : c.isAlphanum = true)
    (rest_eq : scan.cursor.rest = c :: rest) : scan.fetchHere = scan.fetchPlain := by
  have other := ne_of_isAlphanum first
  have isWord : isPlainWordCharacter c = true := by simp [isPlainWordCharacter, first]
  have range := toNat_of_plainWordCharacter isWord
  have visible := isSeparation_of_visible (isBlank_of_visibleAscii range.1 range.2)
    (other endOfText rfl)
  have begins : beginsPlain scan.version scan.inFlow c (scan.cursor.peekAt 1) = true := by
    simp [beginsPlain, visible, isIndicator_of_isAlphanum first]
  simp [fetchHere, rest_eq, Cursor.peek_of_rest rest_eq, Cursor.atMarker_of_rest rest_eq, begins,
    other '%' rfl, other '-' rfl, other '.' rfl, other '[' rfl, other '\x7b' rfl, other ']' rfl,
    other '\x7d' rfl, other ',' rfl, other '?' rfl, other ':' rfl, other '*' rfl, other '&' rfl,
    other '!' rfl, other '|' rfl, other '>' rfl, other '\'' rfl, other '"' rfl]

/-- A portable form is read as a scalar of its text up to where every scalar ends. -/
theorem fetchHere_portable {next : Scan} {form text rest : List Char}
    (isPortable : Portable form text) (rest_eq : scan.cursor.rest = form ++ rest)
    (ends : EndsScalar scan.inFlow rest) (saved : scan.saveCandidate = .ok next) :
    scan.fetchHere = .ok
      { next.push (.scalar (String.ofList text)) scan.cursor.mark
          (scan.cursor.mark.behind form) with
        cursor := ⟨scan.cursor.mark.behind form, rest⟩, keyAllowed := false } := by
  have cursor_eq : scan.cursor = ⟨scan.cursor.mark, form ++ rest⟩ := by rw [← rest_eq]
  obtain ⟨noSpace, noQuote, noBreak⟩ := ends.head
  cases isPortable with
  | plain isWord =>
      have read := Token.plainScalar_stop
        { version := scan.version, inFlow := scan.inFlow, least := scan.least }
        scan.cursor.mark isWord.isPlain.nonempty isWord.isPlain.noComment
        (isWord.continues ..) (ends.stopsPlain _) noSpace noBreak
      rw [← cursor_eq] at read
      obtain ⟨c, others, same, first⟩ := isWord.begins
      rw [fetchHere_alphanumeric first (rest_eq.trans (congrArg (· ++ rest) same)), fetchPlain,
        saved]
      simp only [read]
      rfl
  | @quoted style content _ reads =>
      have read := reads scan.cursor.mark rest noQuote
      rw [← cursor_eq] at read
      rw [fetchHere_quoted rest_eq, fetchQuoted, fetchContent, saved, read]
      rfl

/-- A portable scalar at the end of a text ends all collections. -/
theorem Emits.lastForm {fuel : Nat} {level : Nat} {outer : List Nat} {keyAllowed : Bool}
    {column : Nat} {form text : List Char} (isPortable : Portable form text)
    (deeper : level < column) (arrives : scan.Arrives (level :: outer) keyAllowed column form) :
    Emits (fuel + 3) scan (.scalar (String.ofList text) ::
      (List.replicate (level :: outer).length .blockEnd ++ [.streamEnd])) := by
  refine Emits.of_inside arrives
    (fun other isHead => Option.some.inj isHead ▸ Nat.le_of_lt deeper) fun here isHere => ?_
  have fetched := fetchHere_portable isPortable
    (isHere.rest_eq.trans (List.append_nil form).symm) .nothing isHere.saveCandidate
  have atEnd : (here.behindContent (.scalar (String.ofList text)) (here.cursor.mark.behind form)
      ⟨here.cursor.mark.behind form, []⟩ false).AtEnd (level :: outer) :=
    { columns_eq := isHere.columns_eq
      noFlow := isHere.noFlow
      unfinished := isHere.unfinished
      isWhite := List.forall_mem_nil _
      free := isHere.offered_free deeper }
  exact ⟨_, fetched, (Emits.ending atEnd).yields _ (kinds_behindContent ..)⟩

/-- Portable forms may stand in a last line, whether a newline ends it or not. -/
theorem isBlockForm_portable {ending : List Char} (isEnding : ending = [] ∨ ending = ['\n']) :
    IsBlockForm Portable ending where
  written := Portable.written
  closes isPortable deeper arrives := by
    rcases isEnding with rfl | rfl
    · rw [List.append_nil] at arrives
      exact Emits.lastForm isPortable deeper arrives
    · exact isBlockForm_written.closes isPortable.written deeper arrives

end Scan

end Roster.Yaml
