import Mathlib.Algebra.Group.Nat.Defs
import Roster.Proofs.Text.Utf8
import Roster.Proofs.Text.Wide
import Roster.Proofs.Yaml.Cursor
import Roster.Yaml.Presentation
import Roster.Yaml.Token.Quoted

/-!
# Escapes read back

Every character that is written as an escape between double quotes is read back
from that escape: from a letter by the table of letters, or from two, four or
eight hexadecimal digits.
-/

namespace Roster.Yaml

namespace Presentation

/-- An upper-case hexadecimal digit stands for its value. -/
theorem upperDigit (digit : Fin 16) :
    isHexDigit (Nat.digitChar digit).toUpper = true ∧
      hexDigitValue (Nat.digitChar digit).toUpper = digit := by
  revert digit
  decide

/-- The number of upper-case digits is the number they were made from. -/
theorem numberOfDigits_toDigits (value : Nat) :
    numberOfDigits 16 ((Nat.toDigits 16 value).map Char.toUpper) = value := by
  induction value using Nat.strongRecOn with
  | ind value inductionHypothesis =>
      rw [Nat.toDigits_eq_if (by decide)]
      split
      · rename_i single
        simpa [numberOfDigits] using (upperDigit ⟨value, single⟩).2
      · rename_i several
        have front := inductionHypothesis (value / 16) (by omega)
        have last := (upperDigit ⟨value % 16, Nat.mod_lt _ (by decide)⟩).2
        simp only [numberOfDigits] at front
        simp only [numberOfDigits, List.map_append, List.map_cons, List.map_nil,
          List.foldl_append, List.foldl_cons, List.foldl_nil, front, last]
        omega

/-- Upper-case digits are hexadecimal digits. -/
theorem isHexDigit_of_mem_toDigits (value : Nat) :
    ∀ c ∈ (Nat.toDigits 16 value).map Char.toUpper, isHexDigit c = true := by
  induction value using Nat.strongRecOn with
  | ind value inductionHypothesis =>
      rw [Nat.toDigits_eq_if (by decide)]
      split
      · rename_i single
        simpa using (upperDigit ⟨value, single⟩).1
      · rename_i several
        intro c member
        rw [List.map_append, List.mem_append] at member
        rcases member with front | last
        · exact inductionHypothesis (value / 16) (by omega) c front
        · simp only [List.map_cons, List.map_nil, List.mem_singleton] at last
          rw [last]
          exact (upperDigit ⟨value % 16, Nat.mod_lt _ (by decide)⟩).1

/-- Zeros in front do not change a number. -/
theorem numberOfDigits_zeros (count : Nat) (digits : List Char) :
    numberOfDigits 16 (List.replicate count '0' ++ digits) = numberOfDigits 16 digits := by
  induction count with
  | zero => rfl
  | succ count inductionHypothesis =>
      rw [List.replicate_succ, List.cons_append, ← inductionHypothesis]
      rfl

theorem upperHexDigits_eq (width value : Nat) :
    upperHexDigits width value =
      List.replicate (width - (Nat.toDigits 16 value).length) '0' ++
        (Nat.toDigits 16 value).map Char.toUpper := by
  have zero : '0'.toUpper = '0' := by decide
  simp [upperHexDigits, Text.hexDigits, zero]

/-- Written digits have the width they were written with. -/
theorem length_upperHexDigits {width value : Nat} (positive : 0 < width)
    (fits : value < 16 ^ width) : (upperHexDigits width value).length = width := by
  have short := (Nat.length_toDigits_le_iff (by decide) positive).2 fits
  rw [upperHexDigits_eq]
  simp
  omega

theorem numberOfDigits_upperHexDigits (width value : Nat) :
    numberOfDigits 16 (upperHexDigits width value) = value := by
  rw [upperHexDigits_eq, numberOfDigits_zeros, numberOfDigits_toDigits]

theorem isHexDigit_of_mem_upperHexDigits {width value : Nat} {c : Char}
    (member : c ∈ upperHexDigits width value) : isHexDigit c = true := by
  rw [upperHexDigits_eq, List.mem_append] at member
  rcases member with zero | digit
  · rw [List.eq_of_mem_replicate zero]
    rfl
  · exact isHexDigit_of_mem_toDigits value c digit

end Presentation

namespace Token

/-- The code point of a character is that character. -/
theorem codePoint_toNat (c : Char) : codePoint c.toNat = .ok (.char c) := by
  have limit := Text.Utf8.toNat_lt_limit c
  rw [codePoint, if_neg (by omega), if_neg (by omega), Text.CodePoint.ofCode_toNat]

/-- An escape by code point has digits. -/
theorem pos_of_mem_codeEscapes {letter : Char} {width : Nat}
    (listed : (letter, width) ∈ codeEscapes) : 0 < width := by
  simp only [codeEscapes, List.mem_cons, Prod.mk.injEq, List.not_mem_nil, or_false] at listed
  omega

/-- A letter in front of digits is in no other table. -/
theorem lookup_of_mem_codeEscapes {letter : Char} {width : Nat}
    (listed : (letter, width) ∈ codeEscapes) :
    shortEscapes.lookup letter = none ∧ codeEscapes.lookup letter = some width := by
  simp only [codeEscapes, List.mem_cons, Prod.mk.injEq, List.not_mem_nil, or_false] at listed
  rcases listed with ⟨rfl, rfl⟩ | ⟨rfl, rfl⟩ | ⟨rfl, rfl⟩ <;> exact ⟨rfl, rfl⟩

/-- An escape by code point reads back. -/
theorem escape_code (since : Mark) {letter : Char} {width : Nat}
    (listed : (letter, width) ∈ codeEscapes) {c : Char} (fits : c.toNat < 16 ^ width)
    (mark : Mark) (rest : List Char) :
    escape since ⟨mark, letter :: Presentation.upperHexDigits width c.toNat ++ rest⟩ =
      .ok ([.char c], ⟨mark.behind (letter :: Presentation.upperHexDigits width c.toNat), rest⟩) := by
  have noShort := lookup_of_mem_codeEscapes listed
  have length := Presentation.length_upperHexDigits (pos_of_mem_codeEscapes listed) fits
  have taken : ∀ others, (Presentation.upperHexDigits width c.toNat ++ others).take width =
      Presentation.upperHexDigits width c.toNat := fun others => List.take_left' length
  have allDigits : (Presentation.upperHexDigits width c.toNat).find? (fun d => !isHexDigit d) =
      none := by
    rw [List.find?_eq_none]
    intro d member
    simp [Presentation.isHexDigit_of_mem_upperHexDigits member]
  have skipped := Cursor.skip_append (mark.after letter)
    (Presentation.upperHexDigits width c.toNat) rest
  rw [length] at skipped
  simp only [List.cons_append, escape, Cursor.peek_cons, noShort, Cursor.advance_cons,
    List.append_assoc, taken, allDigits, Presentation.numberOfDigits_upperHexDigits,
    codePoint_toNat, skipped]
  rfl

/-- An escape of one letter reads back. -/
theorem escape_letter (since : Mark) {c letter : Char}
    (listed : (c, letter) ∈ Presentation.shortEscapes) (mark : Mark) (rest : List Char) :
    escape since ⟨mark, letter :: rest⟩ = .ok ([.char c], ⟨mark.after letter, rest⟩) := by
  have table : ∀ entry ∈ Presentation.shortEscapes,
      shortEscapes.lookup entry.2 = some entry.1 := by decide
  have meaning : shortEscapes.lookup letter = some c := table _ listed
  simp [escape, meaning]

/-- An escape is a letter of the table, or a letter and digits. -/
theorem escape_cases (c : Char) :
    (∃ letter, (c, letter) ∈ Presentation.shortEscapes ∧
      Presentation.escape c = ['\\', letter]) ∨
    (∃ letter width, (letter, width) ∈ codeEscapes ∧ c.toNat < 16 ^ width ∧
      Presentation.escape c = '\\' :: letter :: Presentation.upperHexDigits width c.toNat) := by
  unfold Presentation.escape
  split
  · rename_i letter found
    obtain ⟨front, back, split, -⟩ := List.lookup_eq_some_iff.1 found
    exact .inl ⟨letter, by rw [split]; simp, rfl⟩
  · right
    have limit := Text.Utf8.toNat_lt_limit c
    split
    · exact ⟨'x', 2, by simp [codeEscapes], by omega, rfl⟩
    · split
      · exact ⟨'u', 4, by simp [codeEscapes], by omega, rfl⟩
      · exact ⟨'U', 8, by simp [codeEscapes], by omega, rfl⟩

/-- An escape begins with a backslash and reads back behind it. -/
theorem exists_escape (since : Mark) (c : Char) :
    ∃ digits, Presentation.escape c = '\\' :: digits ∧ digits ≠ [] ∧
      ∀ mark rest, escape since ⟨mark, digits ++ rest⟩ =
        .ok ([.char c], ⟨mark.behind digits, rest⟩) := by
  rcases escape_cases c with ⟨letter, listed, shape⟩ | ⟨letter, width, listed, fits, shape⟩
  · exact ⟨_, shape, by simp, fun mark rest => escape_letter since listed mark rest⟩
  · exact ⟨_, shape, by simp, fun mark rest => escape_code since listed fits mark rest⟩

end Token

end Roster.Yaml
