import Mathlib.Computability.Language
import Roster.Proofs.Yaml.Portable
import Roster.Proofs.Yaml.Rendered

/-!
# The core schema

Which plain texts other tools take for something else than a string is told by regular
languages: the words for null and for the truth values, the integers and the decimal numbers of
version 1.2. Every text of these is found to be implicit, so it is written between quotes; words
of letters that are not among them are written plain.
-/

namespace Roster.Yaml.CoreSchema

open Presentation (needsEscape)
open scoped Computability

/-- The texts of one character from a class. -/
def oneOf (inClass : Char → Bool) : Language Char := {text | ∃ c, inClass c = true ∧ text = [c]}

/-- The texts of any number of characters from a class. -/
def many (inClass : Char → Bool) : Language Char := (oneOf inClass)∗

/-- The texts of at least one character from a class. -/
def run (inClass : Char → Bool) : Language Char := oneOf inClass * many inClass

/-- Some words. -/
def words (list : List String) : Language Char := {text | ∃ word ∈ list, text = word.toList}

/-- The texts of a language, and the empty one. -/
def optional (language : Language Char) : Language Char := 1 + language

/-- Digits of base eight. -/
def isOctalDigit (c : Char) : Bool := '0' ≤ c && c ≤ '7'

/-- Digits of base sixteen, in either case. -/
def isHexadecimalDigit (c : Char) : Bool :=
  c.isDigit || ('a' ≤ c && c ≤ 'f') || ('A' ≤ c && c ≤ 'F')

/-- A sign or none. -/
def sign : Language Char := optional (words ["+", "-"])

/-- The words for null. -/
def null : Language Char := words ["~", "null", "Null", "NULL"]

/-- The words for truth values. -/
def boolean : Language Char := words ["true", "True", "TRUE", "false", "False", "FALSE"]

/-- Integers: `[-+]?[0-9]+`, `0o[0-7]+` and `0x[0-9a-fA-F]+`. -/
def integer : Language Char :=
  sign * run Char.isDigit + words ["0o"] * run isOctalDigit + words ["0x"] * run isHexadecimalDigit

/-- Exponents: `[eE][-+]?[0-9]+`. -/
def exponent : Language Char := words ["e", "E"] * (sign * run Char.isDigit)

/-- What makes a number decimal: `\.[0-9]*` with an exponent or without, or an exponent. -/
def decimalPart : Language Char :=
  words ["."] * (many Char.isDigit * optional exponent) + exponent

/-- Decimal numbers: `[-+]?[0-9]+` and what makes a number decimal. -/
def decimal : Language Char := sign * (run Char.isDigit * decimalPart)

/-- The plain texts that are no strings. -/
def nonString : Language Char := null + boolean + integer + decimal

variable {inClass : Char → Bool} {text : List Char}

theorem mem_many : text ∈ many inClass ↔ ∀ c ∈ text, inClass c = true := by
  constructor
  · intro member c isInside
    obtain ⟨parts, rfl, each⟩ := Language.mem_kstar.1 member
    obtain ⟨part, isPart, inPart⟩ := List.mem_flatten.1 isInside
    obtain ⟨d, inside, rfl⟩ := each part isPart
    rwa [List.mem_singleton.1 inPart]
  · intro all
    refine Language.mem_kstar.2 ⟨text.map fun c => [c], (List.flatMap_singleton' text).symm, ?_⟩
    intro part isPart
    obtain ⟨c, isInside, rfl⟩ := List.mem_map.1 isPart
    exact ⟨c, all c isInside, rfl⟩

theorem mem_run : text ∈ run inClass ↔ text ≠ [] ∧ ∀ c ∈ text, inClass c = true := by
  constructor
  · intro member
    obtain ⟨first, ⟨c, isFirst, rfl⟩, others, inOthers, rfl⟩ := Language.mem_mul.1 member
    refine ⟨List.cons_ne_nil c others, ?_⟩
    rintro d isInside
    rcases List.mem_cons.1 isInside with rfl | behind
    · exact isFirst
    · exact mem_many.1 inOthers d behind
  · rintro ⟨nonempty, all⟩
    obtain ⟨c, others, rfl⟩ := List.exists_cons_of_ne_nil nonempty
    exact Language.mem_mul.2 ⟨[c], ⟨c, all c List.mem_cons_self, rfl⟩, others,
      mem_many.2 fun d behind => all d (List.mem_cons_of_mem _ behind), rfl⟩

theorem mem_words {list : List String} :
    text ∈ words list ↔ Implicit.isWordOf list text = true := by
  rw [Implicit.isWordOf, List.any_eq_true]
  constructor
  · rintro ⟨word, isWord, rfl⟩
    exact ⟨word, isWord, beq_self_eq_true _⟩
  · rintro ⟨word, isWord, same⟩
    exact ⟨word, isWord, (eq_of_beq same).symm⟩

theorem mem_optional {language : Language Char} :
    text ∈ optional language ↔ text = [] ∨ text ∈ language :=
  Iff.rfl

section Class

/-- Every text of a language lies in a class. -/
def Within (language : Language Char) (inClass : Char → Bool) : Prop :=
  ∀ text ∈ language, ∀ c ∈ text, inClass c = true

variable {left right : Language Char} {smaller : Char → Bool}

theorem Within.add (inLeft : Within left inClass) (inRight : Within right inClass) :
    Within (left + right) inClass := by
  rintro text (isLeft | isRight)
  · exact inLeft text isLeft
  · exact inRight text isRight

theorem Within.mul (inLeft : Within left inClass) (inRight : Within right inClass) :
    Within (left * right) inClass := by
  intro text member c isInside
  obtain ⟨front, isLeft, back, isRight, rfl⟩ := Language.mem_mul.1 member
  rcases List.mem_append.1 isInside with inFront | inBack
  · exact inLeft front isLeft c inFront
  · exact inRight back isRight c inBack

theorem Within.optional (inLeft : Within left inClass) : Within (optional left) inClass := by
  refine Within.add ?_ inLeft
  rintro text rfl c isInside
  cases isInside

theorem within_many (subclass : ∀ c, smaller c = true → inClass c = true) :
    Within (many smaller) inClass :=
  fun _ member c isInside => subclass c (mem_many.1 member c isInside)

theorem within_run (subclass : ∀ c, smaller c = true → inClass c = true) :
    Within (run smaller) inClass :=
  fun _ member c isInside => subclass c ((mem_run.1 member).2 c isInside)

theorem within_words {list : List String}
    (each : list.all (fun word => word.toList.all inClass) = true) :
    Within (words list) inClass := by
  rintro text ⟨word, isWord, rfl⟩ c isInside
  exact List.all_eq_true.1 (List.all_eq_true.1 each word isWord) c isInside

end Class

/-- The visible characters of ASCII behind the single quote. -/
def isBare (c : Char) : Bool := 0x28 ≤ c.toNat && c.toNat ≤ 0x7E

theorem isBare_iff {c : Char} : isBare c = true ↔ 0x28 ≤ c.toNat ∧ c.toNat ≤ 0x7E := by
  simp [isBare]

theorem isBare_of_isHexadecimalDigit {c : Char} (isDigit : isHexadecimalDigit c = true) :
    isBare c = true := by
  simp only [isHexadecimalDigit, Char.isDigit, Bool.or_eq_true, Bool.and_eq_true,
    decide_eq_true_eq, Char.le_def, UInt32.le_iff_toNat_le] at isDigit
  rw [isBare_iff]
  rcases isDigit with (range | range) | range
  · exact ⟨Nat.le_trans (by decide) range.1, Nat.le_trans range.2 (by decide)⟩
  · exact ⟨Nat.le_trans (by decide) range.1, Nat.le_trans range.2 (by decide)⟩
  · exact ⟨Nat.le_trans (by decide) range.1, Nat.le_trans range.2 (by decide)⟩

theorem isBare_of_isDigit {c : Char} (isDigit : c.isDigit = true) : isBare c = true :=
  isBare_of_isHexadecimalDigit (by simp [isHexadecimalDigit, isDigit])

/-- An octal digit is a decimal one whose value is less than eight. -/
theorem isOctalDigit_iff {c : Char} :
    isOctalDigit c = true ↔ c.isDigit = true ∧ hexDigitValue c < 8 := by
  simp only [isOctalDigit, hexDigitValue, Char.isDigit, Bool.and_eq_true, decide_eq_true_eq,
    Char.le_def, UInt32.le_iff_toNat_le, Char.toNat]
  grind

theorem within_sign : Within sign isBare :=
  (within_words (by decide)).optional

theorem within_digits : Within (run Char.isDigit) isBare :=
  within_run fun _ => isBare_of_isDigit

theorem within_exponent : Within exponent isBare :=
  (within_words (by decide)).mul (within_sign.mul within_digits)

/-- Texts that are no strings have only bare characters. -/
theorem within_nonString : Within nonString isBare := by
  have inInteger : Within integer isBare :=
    ((within_sign.mul within_digits).add
      ((within_words (by decide)).mul
        (within_run fun _ isDigit => isBare_of_isDigit (isOctalDigit_iff.1 isDigit).1))).add
      ((within_words (by decide)).mul (within_run fun _ => isBare_of_isHexadecimalDigit))
  have inDecimal : Within decimal isBare :=
    within_sign.mul (within_digits.mul
      (((within_words (by decide)).mul
        ((within_many fun _ => isBare_of_isDigit).mul within_exponent.optional)).add
        within_exponent))
  exact (((within_words (by decide)).add (within_words (by decide))).add inInteger).add inDecimal

section Implicit

open Implicit

variable {signed digits rest : List Char}

theorem mem_sign (isSign : signed ∈ sign) : signed = [] ∨ signed = ['+'] ∨ signed = ['-'] := by
  rcases mem_optional.1 isSign with none | ⟨word, isWord, rfl⟩
  · exact .inl none
  · rcases List.mem_cons.1 isWord with rfl | isMinus
    · exact .inr (.inl rfl)
    · rw [List.mem_singleton.1 isMinus]
      exact .inr (.inr rfl)

/-- The sign of a number is left out. -/
theorem unsigned_append (isSign : signed ∈ sign) (areDigits : digits ∈ run Char.isDigit)
    (rest : List Char) : unsigned (signed ++ (digits ++ rest)) = digits ++ rest := by
  obtain ⟨nonempty, all⟩ := mem_run.1 areDigits
  obtain ⟨c, others, rfl⟩ := List.exists_cons_of_ne_nil nonempty
  have isDigit := all c List.mem_cons_self
  rcases mem_sign isSign with rfl | rfl | rfl
  · have noSign : c ≠ '+' ∧ c ≠ '-' := by
      constructor <;> (rintro rfl; cases isDigit)
    rw [List.nil_append, List.cons_append, unsigned]
    · rintro behind same
      exact noSign.1 (List.cons.inj same).1
    · rintro behind same
      exact noSign.2 (List.cons.inj same).1
  · rfl
  · rfl

/-- How a number begins: with a digit or with a sign. -/
def StartsNumber (text : List Char) : Prop :=
  ∃ c others, text = c :: others ∧ (c.isDigit = true ∨ c = '-' ∨ c = '+')

theorem startsNumber_append (isSign : signed ∈ sign) (areDigits : digits ∈ run Char.isDigit)
    (rest : List Char) : StartsNumber (signed ++ (digits ++ rest)) := by
  obtain ⟨nonempty, all⟩ := mem_run.1 areDigits
  obtain ⟨c, others, rfl⟩ := List.exists_cons_of_ne_nil nonempty
  rcases mem_sign isSign with rfl | rfl | rfl
  · exact ⟨c, others ++ rest, rfl, .inl (all c List.mem_cons_self)⟩
  · exact ⟨'+', c :: others ++ rest, rfl, .inr (.inr rfl)⟩
  · exact ⟨'-', c :: others ++ rest, rfl, .inr (.inl rfl)⟩

/-- A number that begins like one is implicit. -/
theorem isImplicit_of_isNumber (starts : StartsNumber text)
    (isNumber : isInteger text = true ∨ isDecimal text = true) : isImplicit text = true := by
  obtain ⟨c, others, rfl, first⟩ := starts
  have startsNumber : (c.isDigit || c == '-' || c == '+') = true := by
    simpa [or_assoc] using first
  simp only [isImplicit, List.headD_cons, startsNumber, Bool.true_and, Bool.true_or]
  rcases isNumber with isInteger | isDecimal
  · simp [isInteger]
  · simp [isDecimal]

/-- A run in a class is a run in a larger one. -/
theorem isRun_of_mem_run (larger : Char → Bool)
    (subclass : ∀ c, inClass c = true → larger c = true) (isRun : text ∈ run inClass) :
    Implicit.isRun larger text = true := by
  obtain ⟨nonempty, all⟩ := mem_run.1 isRun
  rw [Implicit.isRun, Bool.and_eq_true, List.all_eq_true]
  exact ⟨by simpa using nonempty, fun c isInside => subclass c (all c isInside)⟩

theorem isSpacedDigit_of_isDigit {c : Char} (isDigit : c.isDigit = true) :
    isSpacedDigit 10 c = true := by
  have small : hexDigitValue c < 10 := by
    have range := isDigit
    simp only [Char.isDigit, Bool.and_eq_true, decide_eq_true_eq, UInt32.le_iff_toNat_le] at range
    have high : c.toNat ≤ 0x39 := range.2
    rw [hexDigitValue, if_pos isDigit]
    omega
  simp [isSpacedDigit, isDigit, small]

theorem isExponent_of_mem (isExponent : text ∈ exponent) :
    Implicit.isExponent false text = true := by
  obtain ⟨letter, ⟨word, isWord, rfl⟩, back, number, rfl⟩ := Language.mem_mul.1 isExponent
  obtain ⟨signed, isSign, digits, areDigits, rfl⟩ := Language.mem_mul.1 number
  have body := unsigned_append isSign areDigits []
  rw [List.append_nil] at body
  have run := isRun_of_mem_run Char.isDigit (fun _ => id) areDigits
  rcases List.mem_cons.1 isWord with rfl | isUpper
  · simp [Implicit.isExponent, body, run]
  · rw [List.mem_singleton.1 isUpper]
    simp [Implicit.isExponent, body, run]

/-- An exponent begins with a letter that is no digit. -/
theorem exists_cons_of_mem_exponent (isExponent : text ∈ exponent) :
    ∃ letter others, text = letter :: others ∧ letter ≠ '.' ∧ isSpacedDigit 10 letter = false := by
  obtain ⟨letter, ⟨word, isWord, rfl⟩, back, -, rfl⟩ := Language.mem_mul.1 isExponent
  rcases List.mem_cons.1 isWord with rfl | isUpper
  · exact ⟨'e', back, rfl, by decide, rfl⟩
  · rw [List.mem_singleton.1 isUpper]
    exact ⟨'E', back, rfl, by decide, rfl⟩

/-- Digits are taken up to what begins with no digit. -/
theorem takeWhile_digits (rest : List Char) (areDigits : ∀ c ∈ digits, c.isDigit = true)
    (stops : ∀ c ∈ rest.head?, isSpacedDigit 10 c = false) :
    (digits ++ rest).takeWhile (isSpacedDigit 10) = digits ∧
      (digits ++ rest).dropWhile (isSpacedDigit 10) = rest := by
  have all : ∀ c ∈ digits, isSpacedDigit 10 c = true := fun c isInside =>
    isSpacedDigit_of_isDigit (areDigits c isInside)
  rw [List.takeWhile_append_of_pos all, List.dropWhile_append_of_pos all]
  cases rest with
  | nil => simp
  | cons c others =>
      have stop := stops c rfl
      simp [stop]

/-- Behind the digits of a fraction there is nothing or an exponent. -/
theorem behind_fraction {fraction behind : List Char} (inFraction : fraction ∈ many Char.isDigit)
    (isBehind : behind ∈ optional exponent) :
    (fraction ++ behind).dropWhile (isSpacedDigit 10) = behind ∧
      (behind = [] ∨ Implicit.isExponent false behind = true) := by
  have areDigits := mem_many.1 inFraction
  rcases mem_optional.1 isBehind with rfl | isExponent
  · exact ⟨(takeWhile_digits [] areDigits (by simp)).2, .inl rfl⟩
  · have accepted := isExponent_of_mem isExponent
    obtain ⟨letter, others, rfl, -, noDigit⟩ := exists_cons_of_mem_exponent isExponent
    exact ⟨(takeWhile_digits _ areDigits (by simpa using noDigit)).2, .inr accepted⟩

theorem isDecimal_append (isSign : signed ∈ sign) (areDigits : digits ∈ run Char.isDigit)
    (isPart : rest ∈ decimalPart) : isDecimal (signed ++ (digits ++ rest)) = true := by
  obtain ⟨nonempty, all⟩ := mem_run.1 areDigits
  obtain ⟨c, others, rfl⟩ := List.exists_cons_of_ne_nil nonempty
  have isDigit := all c List.mem_cons_self
  -- A number that begins with its point is another alternative.
  have noPoint : c ≠ '.' := by
    rintro rfl
    cases isDigit
  rw [isDecimal, unsigned_append isSign areDigits]
  rcases isPart with withPoint | isExponent
  · obtain ⟨point, ⟨word, isWord, rfl⟩, back, number, rfl⟩ := Language.mem_mul.1 withPoint
    obtain ⟨fraction, inFraction, behind, isBehind, rfl⟩ := Language.mem_mul.1 number
    rw [List.mem_singleton.1 isWord]
    have taken := (takeWhile_digits ('.' :: (fraction ++ behind)) all (by simp; rfl)).1
    obtain ⟨dropped, accepted⟩ := behind_fraction inFraction isBehind
    have point : ".".toList ++ (fraction ++ behind) = '.' :: (fraction ++ behind) := rfl
    simp only [point, taken, List.drop_left]
    rw [List.cons_append, List.head?_cons]
    simp only [dropped]
    simpa [isDigit] using accepted
  · obtain ⟨letter, exponentRest, rfl, other, noDigit⟩ := exists_cons_of_mem_exponent isExponent
    have taken := (takeWhile_digits (letter :: exponentRest) all (by simpa using noDigit)).1
    simp only [taken, List.drop_left]
    have accepted := isExponent_of_mem isExponent
    simp [other, isDigit, accepted]

theorem isInteger_append (isSign : signed ∈ sign) (areDigits : digits ∈ run Char.isDigit) :
    Implicit.isInteger (signed ++ digits) = true := by
  have isRun := isRun_of_mem_run (isSpacedDigit 10) (fun _ => isSpacedDigit_of_isDigit) areDigits
  have body := unsigned_append isSign areDigits []
  rw [List.append_nil] at body
  rw [isInteger, body]
  simp [isRun]

theorem isInteger_octal (areDigits : digits ∈ run isOctalDigit) :
    Implicit.isInteger ('0' :: 'o' :: digits) = true := by
  have isRun := isRun_of_mem_run (isSpacedDigit 8)
    (fun c isDigit => by simp [isSpacedDigit, isOctalDigit_iff.1 isDigit]) areDigits
  simp [isInteger, unsigned, isRun]

theorem isInteger_hexadecimal (areDigits : digits ∈ run isHexadecimalDigit) :
    Implicit.isInteger ('0' :: 'x' :: digits) = true := by
  have isRun := isRun_of_mem_run isSpacedHexDigit
    (fun c (isDigit : isHexDigit c = true) => by simp [isSpacedHexDigit, isDigit]) areDigits
  simp [isInteger, unsigned, isRun]

/-- Every text that is no string is implicit. -/
theorem isImplicit_of_mem_nonString (member : text ∈ nonString) : isImplicit text = true := by
  rcases member with ((isNull | isBoolean) | (isNumber | isOctal) | isHexadecimal) | isDecimal
  · simp [isImplicit, nullWords, mem_words.1 isNull]
  · simp [isImplicit, boolWords, mem_words.1 isBoolean]
  · obtain ⟨signed, isSign, digits, areDigits, rfl⟩ := Language.mem_mul.1 isNumber
    have starts := startsNumber_append isSign areDigits []
    rw [List.append_nil] at starts
    exact isImplicit_of_isNumber starts (.inl (isInteger_append isSign areDigits))
  · obtain ⟨front, ⟨word, isWord, rfl⟩, digits, areDigits, rfl⟩ := Language.mem_mul.1 isOctal
    rw [List.mem_singleton.1 isWord]
    exact isImplicit_of_isNumber ⟨'0', _, rfl, .inl rfl⟩ (.inl (isInteger_octal areDigits))
  · obtain ⟨front, ⟨word, isWord, rfl⟩, digits, areDigits, rfl⟩ :=
      Language.mem_mul.1 isHexadecimal
    rw [List.mem_singleton.1 isWord]
    exact isImplicit_of_isNumber ⟨'0', _, rfl, .inl rfl⟩ (.inl (isInteger_hexadecimal areDigits))
  · obtain ⟨signed, isSign, number, isNumber, rfl⟩ := Language.mem_mul.1 isDecimal
    obtain ⟨digits, areDigits, rest, isPart, rfl⟩ := Language.mem_mul.1 isNumber
    exact isImplicit_of_isNumber (startsNumber_append isSign areDigits rest)
      (.inr (isDecimal_append isSign areDigits isPart))

/-- No letter is a digit. -/
theorem isDigit_of_isAlpha {c : Char} (isLetter : c.isAlpha = true) : c.isDigit = false := by
  have ranges : c.isAlpha =
      (decide (65 ≤ c.val ∧ c.val ≤ 90) || (97 ≤ c.val && c.val ≤ 122)) := rfl
  simp only [ranges, Bool.or_eq_true, Bool.and_eq_true, decide_eq_true_eq,
    UInt32.le_iff_toNat_le] at isLetter
  simp only [Char.isDigit, Bool.and_eq_false_iff, decide_eq_false_iff_not, UInt32.le_iff_toNat_le]
  grind

/-- Words of letters are implicit only as words for null and for truth values. -/
theorem isImplicit_of_letters (letters : text ∈ run Char.isAlpha) (isString : text ∉ nonString) :
    isImplicit text = false := by
  obtain ⟨nonempty, all⟩ := mem_run.1 letters
  have noBoolean : isWordOf boolWords text = false := Bool.eq_false_iff.2 fun isBoolean =>
    isString (.inl (.inl (.inr (mem_words.2 isBoolean))))
  have noNull : isWordOf nullWords text = false := Bool.eq_false_iff.2 fun isNull =>
    isString (.inl (.inl (.inl (mem_words.2 isNull))))
  obtain ⟨c, others, rfl⟩ := List.exists_cons_of_ne_nil nonempty
  have isLetter := all c List.mem_cons_self
  have noMark : isWordOf specialMarks (c :: others) = false := Bool.eq_false_iff.2 fun isMark => by
    obtain ⟨word, isWord, same⟩ := mem_words.2 isMark
    rcases List.mem_cons.1 isWord with rfl | isLast
    · cases same
      cases isLetter
    · rw [List.mem_singleton.1 isLast] at same
      cases same
      cases isLetter
  have noDigit : c.isDigit = false := isDigit_of_isAlpha isLetter
  have noSign : c ≠ '-' ∧ c ≠ '+' ∧ c ≠ '.' := by
    refine ⟨?_, ?_, ?_⟩ <;> (rintro rfl; cases isLetter)
  simp [isImplicit, noBoolean, noNull, noMark, noDigit, noSign]

end Implicit

/-- A text that is no string is written between single quotes. -/
theorem scalar_of_mem_nonString (column : Nat) (member : text ∈ nonString) :
    Presentation.scalar column text = '\'' :: text ++ ['\''] := by
  have range : ∀ c ∈ text, 0x28 ≤ c.toNat ∧ c.toNat ≤ 0x7E := fun c isInside =>
    isBare_iff.1 (within_nonString text member c isInside)
  have notPlain : Presentation.allowsPlain text = false := by
    simp [Presentation.allowsPlain, isImplicit_of_mem_nonString member]
  have noEscape : text.any needsEscape = false := List.any_eq_false.2 fun c isInside =>
    Bool.eq_false_iff.1 (Presentation.needsEscape_of_ascii
      (Nat.le_trans (by decide) (range c isInside).1) (range c isInside).2)
  have noQuote : text.contains '\'' = false := by
    rw [Bool.eq_false_iff, Ne, List.contains_iff_mem]
    exact fun isInside => absurd (range _ isInside).1 (by decide)
  have style : Presentation.style text = .singleQuoted := by
    rw [Presentation.style, notPlain, noEscape, noQuote]
    rfl
  rw [Presentation.scalar, style]

/-- A word of letters that is none for null or a truth value is written plain. -/
theorem scalar_of_letters (column : Nat) (letters : text ∈ run Char.isAlpha)
    (isString : text ∉ nonString) : Presentation.scalar column text = text := by
  obtain ⟨nonempty, all⟩ := mem_run.1 letters
  have alphanumeric : ∀ c ∈ text, c.isAlphanum = true := fun c isInside => by
    simp [Char.isAlphanum, all c isInside]
  have isWord : IsPlainWord text :=
    { begins := by
        obtain ⟨c, others, same⟩ := List.exists_cons_of_ne_nil nonempty
        exact ⟨c, others, same, alphanumeric c (same ▸ List.mem_cons_self)⟩
      inside := fun c isInside => by simp [isPlainWordCharacter, alphanumeric c isInside] }
  have isPlain := isWord.isPlain
  have noOpening : text.head?.any Presentation.isOpeningIndicator = false :=
    (Option.any_eq_false _ _).2 isPlain.noOpening
  have noEscape : text.any needsEscape = false := List.any_eq_false.2 fun c isInside =>
    have range := toNat_of_plainWordCharacter (isWord.inside c isInside)
    Bool.eq_false_iff.1 (Presentation.needsEscape_of_ascii
      (Nat.le_trans (by decide) range.1) range.2)
  have allowed : Presentation.allowsPlain text = true := by
    simp [Presentation.allowsPlain, isPlain.noMarker, noOpening, isPlain.notLone, isPlain.noColon,
      noEscape, isImplicit_of_letters letters isString]
  have style : Presentation.style text = .plain := by
    rw [Presentation.style, allowed]
    rfl
  rw [Presentation.scalar, style]

end Roster.Yaml.CoreSchema
