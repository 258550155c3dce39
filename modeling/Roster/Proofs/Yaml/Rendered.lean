import Roster.Proofs.Yaml.Portable
import Roster.Yaml.Document

/-!
# Rendered scalars read back

Whatever style is chosen for a text without blanks, what is written reads back as
the text, and consists of characters that every reader accepts.
-/

namespace Roster.Yaml

open Roster.Text (Unbroken)

namespace Presentation

/-- The characters that are ever written: newlines and those that need no escape. -/
def isEverWritten (c : Char) : Bool :=
  c == '\n' || !needsEscape c

/-- What is written may be read. -/
theorem isReadable_of_isEverWritten {c : Char} (written : isEverWritten c = true) :
    isReadable c = true := by
  rw [isEverWritten, Bool.or_eq_true, beq_iff_eq, Bool.not_eq_true'] at written
  rcases written with rfl | noEscape
  · rfl
  · simp only [needsEscape, Bool.or_eq_false_iff, Bool.not_eq_false'] at noEscape
    simp only [isReadable, Bool.or_eq_true, Bool.and_eq_true, beq_iff_eq,
      decide_eq_true_eq] at noEscape ⊢
    omega

/-- The visible characters of ASCII and the space need no escape. -/
theorem needsEscape_of_ascii {c : Char} (low : 0x20 ≤ c.toNat) (high : c.toNat ≤ 0x7E) :
    needsEscape c = false := by
  have noMark : c ≠ '\ufeff' := by
    rintro rfl
    exact absurd high (by decide)
  simp [needsEscape, low, high, noMark]

/-- The digits of an escape need no escape. -/
theorem needsEscape_of_isHexDigit {c : Char} (digit : isHexDigit c = true) :
    needsEscape c = false := by
  simp only [isHexDigit, Char.isDigit, Bool.or_eq_true, Bool.and_eq_true, decide_eq_true_eq,
    Char.le_def, UInt32.le_iff_toNat_le] at digit
  have codes : 0x30 ≤ c.toNat ∧ c.toNat ≤ 0x66 := by
    rcases digit with (range | range) | range
    · exact ⟨range.1, Nat.le_trans range.2 (by decide)⟩
    · exact ⟨Nat.le_trans (by decide) range.1, range.2⟩
    · exact ⟨Nat.le_trans (by decide) range.1, Nat.le_trans range.2 (by decide)⟩
  exact needsEscape_of_ascii (Nat.le_trans (by decide) codes.1)
    (Nat.le_trans codes.2 (by decide))

/-- An escape is made of characters that need none. -/
theorem needsEscape_of_mem_escape {c d : Char} (member : d ∈ escape c) :
    needsEscape d = false := by
  have backslash : needsEscape '\\' = false := by decide
  have letters : ∀ entry ∈ shortEscapes, needsEscape entry.2 = false := by decide
  have codeLetters : ∀ entry ∈ codeEscapes, needsEscape entry.1 = false := by decide
  rcases Token.escape_cases c with ⟨letter, listed, shape⟩ | ⟨letter, width, listed, -, shape⟩
  · simp only [shape, List.mem_cons, List.not_mem_nil, or_false] at member
    rcases member with isBackslash | isLetter
    · rw [isBackslash, backslash]
    · rw [isLetter, letters _ listed]
  · simp only [shape, List.mem_cons] at member
    rcases member with isBackslash | isLetter | isDigit
    · rw [isBackslash, backslash]
    · rw [isLetter, codeLetters _ listed]
    · exact needsEscape_of_isHexDigit (isHexDigit_of_mem_upperHexDigits isDigit)

theorem isEverWritten_of_not_needsEscape {c : Char} (noEscape : needsEscape c = false) :
    isEverWritten c = true := by
  simp [isEverWritten, noEscape]

theorem isEverWritten_of_mem_softBreak {c : Char} (member : c ∈ softBreak) :
    isEverWritten c = true :=
  List.all_eq_true.1 (show softBreak.all isEverWritten = true by decide) c member

/-- What stands between double quotes may be read. -/
theorem isEverWritten_of_mem_doubleQuoted {content text : List Char}
    (isContent : Token.DoubleQuoted content text) : ∀ c ∈ content, isEverWritten c = true := by
  intro c member
  induction isContent with
  | nil => cases member
  | escaped d _ inductionHypothesis =>
      rcases List.mem_append.1 member with isEscape | isOther
      · exact isEverWritten_of_not_needsEscape (needsEscape_of_mem_escape isEscape)
      · exact inductionHypothesis isOther
  | literal plain _ inductionHypothesis =>
      rcases List.mem_cons.1 member with rfl | isOther
      · simp only [isEscaped, Bool.or_eq_false_iff] at plain
        exact isEverWritten_of_not_needsEscape plain.1.1.1.1.1
      · exact inductionHypothesis isOther
  | softBreak _ inductionHypothesis =>
      rcases List.mem_append.1 member with isBreak | isOther
      · exact isEverWritten_of_mem_softBreak isBreak
      · exact inductionHypothesis isOther

/-- The three forms of a scalar: plain and between single quotes only if nothing in it
needs an escape, and between single quotes only if there is none inside. -/
theorem scalar_cases (column : Nat) (text : List Char) :
    (allowsPlain text = true ∧ (∀ c ∈ text, needsEscape c = false) ∧ scalar column text = text) ∨
    ((∀ c ∈ text, needsEscape c = false) ∧ '\'' ∉ text ∧
      scalar column text = '\'' :: text ++ ['\'']) ∨
    scalar column text =
      '"' :: doubleQuotedContent true (column + 1) 0 (text.map .char) ++ ['"'] := by
  by_cases plain : allowsPlain text = true
  · left
    have isPlain : style text = .plain := by simp [style, plain]
    refine ⟨plain, ?_, by rw [scalar, isPlain]⟩
    simp only [allowsPlain, Bool.and_eq_true, Bool.not_eq_true', List.any_eq_false,
      Bool.not_eq_true] at plain
    exact plain.1.2
  · right
    by_cases quoted : (text.any needsEscape || text.contains '\'') = true
    · right
      have isDouble : style text = .doubleQuoted := by rw [style, if_neg plain, if_pos quoted]
      rw [scalar, isDouble]
      rfl
    · left
      have isSingle : style text = .singleQuoted := by rw [style, if_neg plain, if_neg quoted]
      simp only [Bool.or_eq_true, not_or, Bool.not_eq_true, List.any_eq_false, List.contains_eq_mem,
        decide_eq_false_iff_not] at quoted
      exact ⟨quoted.1, quoted.2, by rw [scalar, isSingle]⟩

/-- A scalar may be read, whatever its style. -/
theorem isEverWritten_of_mem_scalar {column : Nat} {text : List Char} :
    ∀ c ∈ scalar column text, isEverWritten c = true := by
  intro c member
  rcases scalar_cases column text with ⟨-, noEscape, form⟩ | ⟨noEscape, -, form⟩ | form
  · rw [form] at member
    exact isEverWritten_of_not_needsEscape (noEscape c member)
  · rw [form, List.cons_append, List.mem_cons, List.mem_append, List.mem_singleton] at member
    rcases member with rfl | inside | rfl
    · rfl
    · exact isEverWritten_of_not_needsEscape (noEscape c inside)
    · rfl
  · rw [form, List.cons_append, List.mem_cons, List.mem_append, List.mem_singleton] at member
    rcases member with rfl | inside | rfl
    · rfl
    · exact isEverWritten_of_mem_doubleQuoted
        (Token.doubleQuoted_doubleQuotedContent true (column + 1) 0 text) c inside
    · rfl

/-- A rendered scalar stands for its text. -/
theorem written_scalar (column : Nat) {text : List Char} (nonempty : text ≠ [])
    (unbroken : Unbroken text) : Written (scalar column text) text := by
  rcases scalar_cases column text with ⟨allowed, -, form⟩ | ⟨noEscape, noQuote, form⟩ | form
  · rw [form]
    exact .plain (isPlain_of_allowsPlain nonempty unbroken allowed)
  · have noEnd : endOfText ∉ text := fun member => by
      have plain := noEscape endOfText member
      cases plain
    have portable := portable_single unbroken noEnd
    rw [Token.doubledQuotes_of_not_mem noQuote] at portable
    rw [form]
    exact portable.written
  · have isContent := Token.doubleQuoted_doubleQuotedContent true (column + 1) 0 text
    rw [form]
    exact (portable_double isContent unbroken).written

end Presentation

end Roster.Yaml
