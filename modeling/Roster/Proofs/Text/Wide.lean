import Roster.Proofs.Outcome
import Roster.Text.Wide

/-!
# What wide texts hold

Code points without halves are the characters of a string, and a wide text is determined by
its code points. Exactly the wide texts without halves have bytes, those of their string;
a fault of the encoding lies at the first half.
-/

namespace Roster.Text

namespace CodePoint

/-- The code point with the number of a character is that character. -/
theorem ofCode_toNat (c : Char) : ofCode c.toNat = .char c := by
  have noHalf : ¬(0xD800 ≤ c.toNat ∧ c.toNat ≤ 0xDFFF) := by
    have valid : c.toNat < 0xD800 ∨ 0xDFFF < c.toNat ∧ c.toNat < 0x110000 := c.valid
    omega
  rw [ofCode, dif_neg noHalf, Char.ofNat_toNat]

/-- Characters are no halves. -/
theorem any_isHalf_chars (text : List Char) : (text.map char).any isHalf = false := by
  simp [isHalf]

theorem filterMap_char?_chars (text : List Char) : (text.map char).filterMap char? = text := by
  have kept : char? ∘ char = some := rfl
  rw [List.filterMap_map, kept, List.filterMap_some]

/-- Texts with the same code points are the same. -/
theorem map_char_injective {left right : List Char} (same : left.map char = right.map char) :
    left = right := by
  rw [← filterMap_char?_chars left, same, filterMap_char?_chars]

/-- Code points are characters, or characters up to a first half. -/
theorem chars_or_half (codes : List CodePoint) :
    (∃ text : List Char, codes = text.map char) ∨
      ∃ (text : List Char) (first : Half) (rest : List CodePoint),
        codes = text.map char ++ half first :: rest := by
  induction codes with
  | nil => exact .inl ⟨[], rfl⟩
  | cons code others inductionHypothesis =>
      cases code with
      | half first => exact .inr ⟨[], first, others, rfl⟩
      | char c =>
          rcases inductionHypothesis with ⟨text, rfl⟩ | ⟨text, first, rest, rfl⟩
          · exact .inl ⟨c :: text, rfl⟩
          · exact .inr ⟨c :: text, first, rest, rfl⟩

/-- Code points without halves are characters. -/
theorem exists_chars {codes : List CodePoint} (noHalf : codes.any isHalf = false) :
    ∃ text : List Char, codes = text.map char := by
  rcases chars_or_half codes with isText | ⟨text, first, rest, rfl⟩
  · exact isText
  · simp [isHalf] at noHalf

end CodePoint

namespace Wide

/-- Characters form a string. -/
theorem ofCodes_chars (text : List Char) :
    ofCodes (text.map .char) = .plain (String.ofList text) := by
  have noHalf : ¬(text.map CodePoint.char).any CodePoint.isHalf = true := by
    rw [CodePoint.any_isHalf_chars]
    exact Bool.false_ne_true
  rw [ofCodes, dif_neg noHalf, CodePoint.filterMap_char?_chars]

/-- Code points with a half among them form a text that holds a half. -/
theorem ofCodes_halved {codes : List CodePoint} (holds : codes.any CodePoint.isHalf = true) :
    ofCodes codes = .halved codes holds := by
  rw [ofCodes, dif_pos holds]

/-- A text is the one of its code points. -/
theorem ofCodes_codes (text : Wide) : ofCodes text.codes = text := by
  cases text with
  | plain text => rw [codes, ofCodes_chars, String.ofList_toList]
  | halved codes holds => exact ofCodes_halved holds

/-- The code points of a text are those it was made of. -/
theorem codes_ofCodes (found : List CodePoint) : (ofCodes found).codes = found := by
  cases holds : found.any CodePoint.isHalf with
  | true => rw [ofCodes_halved holds, codes]
  | false =>
      obtain ⟨text, rfl⟩ := CodePoint.exists_chars holds
      rw [ofCodes_chars, codes, String.toList_ofList]

theorem isHalved_eq (text : Wide) : text.isHalved = text.codes.any CodePoint.isHalf := by
  cases text with
  | plain text => exact (CodePoint.any_isHalf_chars text.toList).symm
  | halved codes holds => exact holds.symm

end Wide

namespace Utf8

/-- Characters have the bytes of their text. -/
theorem encodeFrom_chars (position : Nat) (text : List Char) :
    encodeFrom position (text.map .char) = .ok (encode text) := by
  induction text generalizing position with
  | nil => rfl
  | cons c others inductionHypothesis =>
      rw [List.map_cons, encodeFrom, inductionHypothesis]
      rfl

theorem encodeCodes_chars (text : List Char) :
    encodeCodes (text.map .char) = .ok (encode text) :=
  encodeFrom_chars 0 text

/-- The first half is where the encoding stops. -/
theorem encodeFrom_half (position : Nat) (text : List Char) (first : Half)
    (rest : List CodePoint) :
    ∃ length, encodeFrom position (text.map .char ++ .half first :: rest) =
      .error { start := position + text.length, first, length } := by
  induction text generalizing position with
  | nil => exact ⟨_, rfl⟩
  | cons c others inductionHypothesis =>
      obtain ⟨length, stopped⟩ := inductionHypothesis (position + 1)
      refine ⟨length, ?_⟩
      rw [List.map_cons, List.cons_append, encodeFrom, stopped, List.length_cons]
      simp [bind, Except.bind]
      omega

/-- Exactly code points without halves have bytes. -/
theorem exists_encodeCodes_iff {codes : List CodePoint} :
    (∃ bytes, encodeCodes codes = .ok bytes) ↔ codes.any CodePoint.isHalf = false := by
  rcases CodePoint.chars_or_half codes with ⟨text, rfl⟩ | ⟨text, first, rest, rfl⟩
  · exact iff_of_true ⟨_, encodeCodes_chars text⟩ (CodePoint.any_isHalf_chars text)
  · obtain ⟨length, stopped⟩ := encodeFrom_half 0 text first rest
    refine iff_of_false ?_ (by simp [CodePoint.isHalf])
    rintro ⟨bytes, encoded⟩
    rw [encodeCodes, stopped] at encoded
    cases encoded

end Utf8

end Roster.Text
