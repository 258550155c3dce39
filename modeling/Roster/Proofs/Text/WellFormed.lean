import Roster.Proofs.Outcome
import Roster.Proofs.Text.Utf8

/-!
# Well-formed bytes

Bytes are well-formed if they are the bytes of some text. The decoder accepts exactly these
bytes, and where it meets others, its fault begins behind the longest well-formed front of
them: what stands in front decodes to a text, and what follows begins with the bytes of no
character.
-/

namespace Roster.Text.Utf8

/-- Bytes that encode a text. -/
def IsWellFormed (bytes : List UInt8) : Prop := ∃ text, encode text = bytes

/-- The length of the longest well-formed front of some bytes. -/
structure IsLongestFront (bytes : List UInt8) (length : Nat) : Prop where
  within : length ≤ bytes.length
  isWellFormed : IsWellFormed (bytes.take length)
  longest : ∀ front, front <+: bytes → IsWellFormed front → front.length ≤ length

/-- A character in front of what is decoded also stands in front where decoding goes on. -/
theorem cons_decoded_append {front whole behind : Except Fault (List Char)} {c : Char}
    {text : List Char} (decoded : (front >>= fun others => pure (c :: others)) = .ok text)
    (goesOn : ∀ others, front = .ok others → whole = behind.map (others ++ ·)) :
    (whole >>= fun others => pure (c :: others)) = behind.map (text ++ ·) := by
  obtain ⟨others, found, same⟩ := bind_eq_ok.1 decoded
  obtain rfl : c :: others = text := Except.ok.inj same
  rw [goesOn others found]
  cases behind <;> rfl

/-- Decoding goes on behind bytes that decode to a text. -/
theorem decodeFrom_append {position : Nat} {state : Option Unfinished} {bytes : List UInt8}
    {text : List Char} (decoded : decodeFrom position state bytes = .ok text)
    (rest : List UInt8) :
    decodeFrom position state (bytes ++ rest) =
      (decodeFrom (position + bytes.length) none rest).map (text ++ ·) := by
  induction bytes generalizing position state text with
  | nil =>
      cases state with
      | none =>
          cases decoded
          rw [List.nil_append, List.length_nil, Nat.add_zero]
          cases decodeFrom position none rest <;> rfl
      | some sequence => cases decoded
  | cons byte others inductionHypothesis =>
      have onward : position + (byte :: others).length = position + 1 + others.length := by
        rw [List.length_cons]
        omega
      rw [onward, List.cons_append]
      cases state with
      | none =>
          rw [decodeFrom] at decoded ⊢
          by_cases ascii : byte < 0x80
          · rw [if_pos ascii] at decoded ⊢
            exact cons_decoded_append decoded fun _ => inductionHypothesis
          · rw [if_neg ascii] at decoded ⊢
            split at decoded
            · cases decoded
            · exact inductionHypothesis decoded
      | some sequence =>
          rw [decodeFrom] at decoded ⊢
          split at decoded
          · rename_i admitted
            rw [if_pos admitted]
            by_cases last : sequence.missing ≤ 1
            · rw [if_pos last] at decoded ⊢
              exact cons_decoded_append decoded fun _ => inductionHypothesis
            · rw [if_neg last] at decoded ⊢
              exact inductionHypothesis decoded
          · cases decoded

/-- Decoding goes on behind the bytes of a text. -/
theorem decodeFrom_encode_append (position : Nat) (text : List Char) (rest : List UInt8) :
    decodeFrom position none (encode text ++ rest) =
      (decodeFrom (position + (encode text).length) none rest).map (text ++ ·) :=
  decodeFrom_append (decodeFrom_encode position text) rest

/-- The bytes that end a sequence, and its value then. -/
inductive Unfinished.Completes : Unfinished → List UInt8 → Nat → Prop where
  | last {sequence byte} (admitted : sequence.admits byte = true) (final : sequence.missing ≤ 1) :
      Completes sequence [byte] (sequence.valueWith byte)
  | more {sequence byte tail value} (admitted : sequence.admits byte = true)
      (further : 1 < sequence.missing) (behind : Completes (sequence.extend byte) tail value) :
      Completes sequence (byte :: tail) value

/-- Inside a sequence, either its end is found, or the fault is where it begins. -/
theorem decodeFrom_some_cases (position : Nat) (sequence : Unfinished) (bytes : List UInt8) :
    (∃ tail value rest, bytes = tail ++ rest ∧ sequence.Completes tail value) ∨
      ∃ fault, decodeFrom position (some sequence) bytes = .error fault ∧
        fault.start = sequence.start := by
  induction bytes generalizing position sequence with
  | nil => exact .inr ⟨_, rfl, rfl⟩
  | cons byte others inductionHypothesis =>
      rw [decodeFrom]
      by_cases admitted : sequence.admits byte = true
      · rw [if_pos admitted]
        by_cases last : sequence.missing ≤ 1
        · exact .inl ⟨[byte], _, others, rfl, .last admitted last⟩
        · rw [if_neg last]
          rcases inductionHypothesis (position + 1) (sequence.extend byte) with
            ⟨tail, value, rest, rfl, completes⟩ | faulty
          · exact .inl ⟨byte :: tail, value, rest, rfl, .more admitted (Nat.not_le.1 last) completes⟩
          · exact .inr faulty
      · rw [if_neg admitted]
        exact .inr ⟨_, rfl, rfl⟩

section Characters

variable {first second third fourth : UInt8}

/-- The number of a character that is given by its number. -/
theorem val_ofNat {value : Nat} (valid : value.isValidChar) :
    (Char.ofNat value).val.toNat = value := by
  rw [Char.ofNat, dif_pos valid]
  rfl

/-- A byte that is given by its number. -/
theorem ofNat_eq (byte : UInt8) {value : Nat} (same : value = byte.toNat) :
    UInt8.ofNat value = byte := by
  rw [same, UInt8.ofNat_toNat]

/-- Characters of one byte. -/
theorem encode_one (ascii : first.toNat < 0x80) :
    String.utf8EncodeChar (Char.ofNat first.toNat) = [first] := by
  have valid : first.toNat.isValidChar := .inl (by omega)
  rw [String.utf8EncodeChar, val_ofNat valid, if_pos (by omega), ofNat_eq first rfl]

/-- Characters of two bytes: the first byte excludes overlong forms. -/
theorem encode_two (low : 0xC2 ≤ first.toNat) (high : first.toNat < 0xE0)
    (lowSecond : 0x80 ≤ second.toNat) (highSecond : second.toNat ≤ 0xBF) :
    String.utf8EncodeChar
      (Char.ofNat ((first.toNat - 0xC0) * 64 + (second.toNat - 0x80))) = [first, second] := by
  generalize isValue : (first.toNat - 0xC0) * 64 + (second.toNat - 0x80) = value
  have valid : value.isValidChar := .inl (by omega)
  rw [String.utf8EncodeChar, val_ofNat valid, if_neg (by omega), if_pos (by omega),
    ofNat_eq first (by omega), ofNat_eq second (by omega)]

/-- Characters of three bytes: the second byte excludes overlong forms and surrogates. -/
theorem encode_three (low : 0xE0 ≤ first.toNat) (high : first.toNat < 0xF0)
    (lowSecond : 0x80 ≤ second.toNat) (highSecond : second.toNat ≤ 0xBF)
    (notOverlong : first.toNat = 0xE0 → 0xA0 ≤ second.toNat)
    (notSurrogate : first.toNat = 0xED → second.toNat ≤ 0x9F)
    (lowThird : 0x80 ≤ third.toNat) (highThird : third.toNat ≤ 0xBF) :
    String.utf8EncodeChar
      (Char.ofNat (((first.toNat - 0xE0) * 64 + (second.toNat - 0x80)) * 64 +
        (third.toNat - 0x80))) = [first, second, third] := by
  generalize isValue : ((first.toNat - 0xE0) * 64 + (second.toNat - 0x80)) * 64 +
    (third.toNat - 0x80) = value
  have valid : value.isValidChar := by
    rw [Nat.isValidChar]
    omega
  rw [String.utf8EncodeChar, val_ofNat valid, if_neg (by omega), if_neg (by omega),
    if_pos (by omega), ofNat_eq first (by omega), ofNat_eq second (by omega),
    ofNat_eq third (by omega)]

/-- Characters of four bytes: the second byte excludes overlong forms and values above
U+10FFFF. -/
theorem encode_four (low : 0xF0 ≤ first.toNat) (high : first.toNat ≤ 0xF4)
    (lowSecond : 0x80 ≤ second.toNat) (highSecond : second.toNat ≤ 0xBF)
    (notOverlong : first.toNat = 0xF0 → 0x90 ≤ second.toNat)
    (notAbove : first.toNat = 0xF4 → second.toNat ≤ 0x8F)
    (lowThird : 0x80 ≤ third.toNat) (highThird : third.toNat ≤ 0xBF)
    (lowFourth : 0x80 ≤ fourth.toNat) (highFourth : fourth.toNat ≤ 0xBF) :
    String.utf8EncodeChar
      (Char.ofNat ((((first.toNat - 0xF0) * 64 + (second.toNat - 0x80)) * 64 +
        (third.toNat - 0x80)) * 64 + (fourth.toNat - 0x80))) =
      [first, second, third, fourth] := by
  generalize isValue : (((first.toNat - 0xF0) * 64 + (second.toNat - 0x80)) * 64 +
    (third.toNat - 0x80)) * 64 + (fourth.toNat - 0x80) = value
  have valid : value.isValidChar := by
    rw [Nat.isValidChar]
    omega
  rw [String.utf8EncodeChar, val_ofNat valid, if_neg (by omega), if_neg (by omega),
    if_neg (by omega), ofNat_eq first (by omega), ofNat_eq second (by omega),
    ofNat_eq third (by omega), ofNat_eq fourth (by omega)]

end Characters

namespace Unfinished

variable {sequence : Unfinished} {start value : Nat} {first byte : UInt8} {tail : List UInt8}

/-- The bytes that begin a sequence. -/
theorem bounds_of_begin? (begins : begin? start first = some sequence) :
    0xC2 ≤ first.toNat ∧ first.toNat ≤ 0xF4 := by
  simp only [begin?, UInt8.lt_iff_toNat_lt, beq_iff_eq, ← UInt8.toNat_inj, UInt8.reduceToNat]
    at begins
  constructor
  · by_contra low
    rw [if_pos (Nat.not_le.1 low)] at begins
    cases begins
  · by_contra high
    have above : 0xF4 < first.toNat := Nat.not_le.1 high
    rw [if_neg (by omega), if_neg (by omega), if_neg (by omega), if_neg (by omega),
      if_neg (by omega), if_neg (by omega), if_neg (by omega), if_neg (by omega)] at begins
    cases begins

/-- A sequence begins where its first byte is. -/
theorem start_of_begin? (begins : begin? start first = some sequence) : sequence.start = start := by
  simp only [begin?] at begins
  split_ifs at begins <;> cases begins <;> rfl

theorem bounds_of_admits (admitted : sequence.admits byte = true) :
    sequence.low.toNat ≤ byte.toNat ∧ byte.toNat ≤ sequence.high.toNat := by
  simpa [admits, UInt8.le_iff_toNat_le] using admitted

/-- A lower bound that is raised in one case. -/
theorem low_cases {raised : Prop} [Decidable raised] {strict usual : UInt8}
    (bound : (if raised then strict else usual).toNat ≤ byte.toNat)
    (ordered : usual.toNat ≤ strict.toNat) :
    usual.toNat ≤ byte.toNat ∧ (raised → strict.toNat ≤ byte.toNat) := by
  split at bound
  · exact ⟨Nat.le_trans ordered bound, fun _ => bound⟩
  · rename_i notRaised
    exact ⟨bound, fun isRaised => absurd isRaised notRaised⟩

/-- An upper bound that is lowered in one case. -/
theorem high_cases {lowered : Prop} [Decidable lowered] {strict usual : UInt8}
    (bound : byte.toNat ≤ (if lowered then strict else usual).toNat)
    (ordered : strict.toNat ≤ usual.toNat) :
    byte.toNat ≤ usual.toNat ∧ (lowered → byte.toNat ≤ strict.toNat) := by
  split at bound
  · exact ⟨Nat.le_trans bound ordered, fun _ => bound⟩
  · rename_i notLowered
    exact ⟨bound, fun isLowered => absurd isLowered notLowered⟩

/-- A byte contributes its distance from the least continuation byte. -/
theorem valueWith_eq (above : 0x80 ≤ byte.toNat) :
    sequence.valueWith byte = sequence.value * 64 + (byte.toNat - 0x80) := by
  have ordered : (0x80 : UInt8) ≤ byte := UInt8.le_iff_toNat_le.2 above
  rw [valueWith, UInt8.toNat_sub_of_le _ _ ordered]
  rfl

namespace Completes

/-- The end of a sequence that lacks one byte. -/
theorem exists_last (completes : sequence.Completes tail value) (one : sequence.missing = 1) :
    ∃ byte, tail = [byte] ∧ sequence.admits byte = true ∧ value = sequence.valueWith byte := by
  cases completes with
  | last admitted final => exact ⟨_, rfl, admitted, rfl⟩
  | more admitted further behind => omega

/-- The end of a sequence that lacks more. -/
theorem exists_more (completes : sequence.Completes tail value) (further : 1 < sequence.missing) :
    ∃ byte others, tail = byte :: others ∧ sequence.admits byte = true ∧
      (sequence.extend byte).Completes others value := by
  cases completes with
  | last admitted final => omega
  | more admitted further behind => exact ⟨_, _, rfl, admitted, behind⟩

end Completes

/-- A first byte and the bytes that end its sequence are the bytes of a character. -/
theorem utf8EncodeChar_of_completes (begins : begin? start first = some sequence)
    (completes : sequence.Completes tail value) :
    String.utf8EncodeChar (Char.ofNat value) = first :: tail := by
  obtain ⟨low, high⟩ := bounds_of_begin? begins
  by_cases two : first.toNat < 0xE0
  · have shape := begin?_two start first.toNat low two
    rw [UInt8.ofNat_toNat, begins] at shape
    cases shape
    obtain ⟨second, rfl, admitted, rfl⟩ := completes.exists_last rfl
    obtain ⟨lowSecond, highSecond⟩ := bounds_of_admits admitted
    rw [valueWith_eq lowSecond]
    exact encode_two low two lowSecond highSecond
  · by_cases three : first.toNat < 0xF0
    · have shape := begin?_three start first.toNat (Nat.not_lt.1 two) three
      rw [UInt8.ofNat_toNat, begins] at shape
      cases shape
      obtain ⟨second, behind, rfl, admitted, completes⟩ := completes.exists_more (by simp)
      obtain ⟨third, rfl, admittedThird, rfl⟩ := completes.exists_last rfl
      obtain ⟨lowSecond, notOverlong⟩ := low_cases (bounds_of_admits admitted).1 (by decide)
      obtain ⟨highSecond, notSurrogate⟩ := high_cases (bounds_of_admits admitted).2 (by decide)
      obtain ⟨lowThird, highThird⟩ := bounds_of_admits admittedThird
      rw [valueWith_eq lowThird, extend, valueWith_eq lowSecond]
      exact encode_three (Nat.not_lt.1 two) three lowSecond highSecond notOverlong notSurrogate
        lowThird highThird
    · have shape := begin?_four start first.toNat (Nat.not_lt.1 three) high
      rw [UInt8.ofNat_toNat, begins] at shape
      cases shape
      obtain ⟨second, behind, rfl, admitted, completes⟩ := completes.exists_more (by simp)
      obtain ⟨third, farther, rfl, admittedThird, completes⟩ :=
        completes.exists_more (by simp [extend])
      obtain ⟨fourth, rfl, admittedFourth, rfl⟩ := completes.exists_last rfl
      obtain ⟨lowSecond, notOverlong⟩ := low_cases (bounds_of_admits admitted).1 (by decide)
      obtain ⟨highSecond, notAbove⟩ := high_cases (bounds_of_admits admitted).2 (by decide)
      obtain ⟨lowThird, highThird⟩ := bounds_of_admits admittedThird
      obtain ⟨lowFourth, highFourth⟩ := bounds_of_admits admittedFourth
      rw [valueWith_eq lowFourth, extend, valueWith_eq lowThird, extend, valueWith_eq lowSecond]
      exact encode_four (Nat.not_lt.1 three) high lowSecond highSecond notOverlong notAbove
        lowThird highThird lowFourth highFourth

end Unfinished

/-- Between two sequences, either the bytes of a character follow, or the fault is here. -/
theorem decodeFrom_none_cases (position : Nat) {bytes : List UInt8} (nonempty : bytes ≠ []) :
    (∃ c rest, bytes = String.utf8EncodeChar c ++ rest) ∨
      ∃ fault, decodeFrom position none bytes = .error fault ∧ fault.start = position := by
  cases bytes with
  | nil => exact absurd rfl nonempty
  | cons byte others =>
      rw [decodeFrom]
      by_cases ascii : byte < 0x80
      · have bytesOfCharacter := encode_one (UInt8.lt_iff_toNat_lt.1 ascii)
        exact .inl ⟨_, others, by rw [bytesOfCharacter, List.singleton_append]⟩
      · rw [if_neg ascii]
        cases begins : Unfinished.begin? position byte with
        | none => exact .inr ⟨_, rfl, rfl⟩
        | some sequence =>
            have here : sequence.start = position := Unfinished.start_of_begin? begins
            rcases decodeFrom_some_cases (position + 1) sequence others with
              ⟨tail, value, rest, rfl, completes⟩ | ⟨fault, faulty, start⟩
            · have bytesOfCharacter := Unfinished.utf8EncodeChar_of_completes begins completes
              exact .inl ⟨_, rest, by rw [bytesOfCharacter, List.cons_append]⟩
            · exact .inr ⟨fault, faulty, start.trans here⟩

/-- Decoding goes on behind the bytes of a character. -/
theorem decodeFrom_utf8EncodeChar_append (position : Nat) (c : Char) (rest : List UInt8) :
    decodeFrom position none (String.utf8EncodeChar c ++ rest) =
      (decodeFrom (position + (String.utf8EncodeChar c).length) none rest).map (c :: ·) := by
  have single : encode [c] = String.utf8EncodeChar c := List.append_nil _
  rw [← single]
  exact decodeFrom_encode_append position [c] rest

/-- Bytes are those of the text they decode to, or the fault is behind the bytes of a text. -/
theorem decodeFrom_cases (position : Nat) (bytes : List UInt8) :
    (∃ text, bytes = encode text ∧ decodeFrom position none bytes = .ok text) ∨
      ∃ text rest fault, bytes = encode text ++ rest ∧
        decodeFrom position none bytes = .error fault ∧
        fault.start = position + (encode text).length := by
  induction size : bytes.length using Nat.strongRecOn generalizing position bytes with
  | ind count inductionHypothesis =>
      by_cases isEmpty : bytes = []
      · subst isEmpty
        exact .inl ⟨[], rfl, rfl⟩
      · rcases decodeFrom_none_cases position isEmpty with ⟨c, rest, rfl⟩ | ⟨fault, faulty, here⟩
        · have shorter : rest.length < count := by
            have positive := c.utf8Size_pos
            rw [List.length_append, String.length_utf8EncodeChar] at size
            omega
          rw [decodeFrom_utf8EncodeChar_append]
          rcases inductionHypothesis rest.length shorter
              (position + (String.utf8EncodeChar c).length) rest rfl with
            ⟨text, rfl, decoded⟩ | ⟨text, others, fault, rfl, faulty, start⟩
          · exact .inl ⟨c :: text, rfl, by rw [decoded]; rfl⟩
          · refine .inr ⟨c :: text, others, fault, (List.append_assoc _ _ _).symm, ?_, ?_⟩
            · rw [faulty]
              rfl
            · rw [start, Nat.add_assoc, ← List.length_append]
              rfl
        · exact .inr ⟨[], bytes, fault, rfl, faulty, here⟩

/-- Bytes decode to a text exactly if they are its bytes. -/
theorem decode_eq_ok_iff {bytes : List UInt8} {text : List Char} :
    decode bytes = .ok text ↔ encode text = bytes := by
  constructor
  · intro decoded
    rcases decodeFrom_cases 0 bytes with ⟨found, rfl, same⟩ | ⟨_, _, fault, _, faulty, _⟩
    · exact congrArg encode (Except.ok.inj (decoded.symm.trans same))
    · cases decoded.symm.trans faulty
  · rintro rfl
    exact decode_encode text

theorem isWellFormed_iff {bytes : List UInt8} :
    IsWellFormed bytes ↔ ∃ text, decode bytes = .ok text := by
  simp only [IsWellFormed, decode_eq_ok_iff]

instance (bytes : List UInt8) : Decidable (IsWellFormed bytes) :=
  match found : decode bytes with
  | .ok text => .isTrue ⟨text, decode_eq_ok_iff.1 found⟩
  | .error fault => .isFalse fun wellFormed => by
      obtain ⟨text, decoded⟩ := isWellFormed_iff.1 wellFormed
      cases found.symm.trans decoded

/-- An overlong form, a surrogate, a value above U+10FFFF, and a truncated sequence behind a
whole one. -/
example : ¬IsWellFormed [0xC0, 0x80] ∧ ¬IsWellFormed [0xED, 0xA0, 0x80] ∧
    ¬IsWellFormed [0xF4, 0x90, 0x80, 0x80] ∧ ¬IsWellFormed [0xE2, 0x82, 0xAC, 0xE2, 0x82] ∧
    IsWellFormed [0xE2, 0x82, 0xAC] := by
  decide +kernel

/-- The first fault is behind the longest well-formed front. -/
theorem isLongestFront_of_decode {bytes : List UInt8} {fault : Fault}
    (faulty : decode bytes = .error fault) : IsLongestFront bytes fault.start := by
  rcases decodeFrom_cases 0 bytes with ⟨_, _, decoded⟩ | ⟨text, rest, found, rfl, same, start⟩
  · cases faulty.symm.trans decoded
  · obtain rfl : fault = found := Except.error.inj (faulty.symm.trans same)
    rw [Nat.zero_add] at start
    rw [start]
    refine ⟨by simp, ⟨text, by simp⟩, ?_⟩
    rintro front ⟨behind, whole⟩ ⟨other, rfl⟩
    -- Decoding goes on behind any well-formed front, so the fault is not inside it.
    rw [decode, ← whole, decodeFrom_encode_append] at faulty
    rcases decodeFrom_cases (0 + (encode other).length) behind with
      ⟨_, _, decoded⟩ | ⟨_, _, later, _, faultyBehind, startBehind⟩
    · rw [decoded] at faulty
      cases faulty
    · rw [faultyBehind] at faulty
      cases faulty
      omega

end Roster.Text.Utf8
