import Roster.Text.Utf8

/-!
# Decoding what was encoded

The bytes of a text decode to the text. The proof follows one character at a time:
its first byte begins a sequence of a known length, each further byte adds six
bits, and the bounds of the second byte exclude only what encodes no character.
-/

namespace Roster.Text.Utf8

/-- The value of a byte given as a number. -/
theorem toNat_ofNat_of_lt {value : Nat} (small : value < 256) : (UInt8.ofNat value).toNat = value := by
  simp [Nat.mod_eq_of_lt small]

/-- The byte that carries the low six bits of a number. -/
def continuation (value : Nat) : UInt8 := UInt8.ofNat (value % 64 + 0x80)

theorem toNat_continuation (value : Nat) : (continuation value).toNat = value % 64 + 0x80 :=
  toNat_ofNat_of_lt (by omega)

/-- What a continuation byte contributes. -/
theorem toNat_continuation_sub (value : Nat) : (continuation value - 0x80).toNat = value % 64 := by
  have above : (0x80 : UInt8) ≤ continuation value := by
    rw [UInt8.le_iff_toNat_le, toNat_continuation]
    exact Nat.le_add_left _ _
  rw [UInt8.toNat_sub_of_le _ _ above, toNat_continuation]
  exact Nat.add_sub_cancel _ _

/-- A continuation byte is admitted if it lies within the bounds. -/
theorem admits_continuation {sequence : Unfinished} {value : Nat}
    (low : sequence.low.toNat ≤ value % 64 + 0x80) (high : value % 64 + 0x80 ≤ sequence.high.toNat) :
    sequence.admits (continuation value) = true := by
  simp only [Unfinished.admits, Bool.and_eq_true, decide_eq_true_eq, UInt8.le_iff_toNat_le,
    toNat_continuation]
  exact ⟨low, high⟩

/-- Comparing a byte given as a number. -/
theorem ofNat_lt_iff {value : Nat} (small : value < 256) (bound : UInt8) :
    UInt8.ofNat value < bound ↔ value < bound.toNat := by
  rw [UInt8.lt_iff_toNat_lt, toNat_ofNat_of_lt small]

/-- Recognizing a byte given as a number. -/
theorem ofNat_beq {value : Nat} (small : value < 256) (other : UInt8) :
    (UInt8.ofNat value == other) = decide (value = other.toNat) := by
  rw [Bool.eq_iff_iff, beq_iff_eq, decide_eq_true_eq, ← UInt8.toNat_inj, toNat_ofNat_of_lt small]

/-- What a first byte contributes. -/
theorem toNat_ofNat_sub {value : Nat} (small : value < 256) (base : UInt8)
    (above : base.toNat ≤ value) : (UInt8.ofNat value - base).toNat = value - base.toNat := by
  have ordered : base ≤ UInt8.ofNat value := by
    rw [UInt8.le_iff_toNat_le, toNat_ofNat_of_lt small]
    exact above
  rw [UInt8.toNat_sub_of_le _ _ ordered, toNat_ofNat_of_lt small]

namespace Unfinished

/-- The sequences of two bytes and their first bytes. -/
theorem begin?_two (start lead : Nat) (low : 0xC2 ≤ lead) (high : lead < 0xE0) :
    begin? start (UInt8.ofNat lead) = some
      { start, first := UInt8.ofNat lead, taken := 1, missing := 1, low := 0x80, high := 0xBF
        value := lead - 0xC0 } := by
  have small : lead < 256 := by omega
  have value := toNat_ofNat_sub small 0xC0 (Nat.le_trans (by decide) low)
  have notLow : ¬lead < 0xC2 := by omega
  simp [begin?, ofNat_lt_iff small, value, notLow, high]

/-- The sequences of three bytes and their first bytes. The second byte is bounded
from below or from above for one first byte each. -/
theorem begin?_three (start lead : Nat) (low : 0xE0 ≤ lead) (high : lead < 0xF0) :
    begin? start (UInt8.ofNat lead) = some
      { start, first := UInt8.ofNat lead, taken := 1, missing := 2
        low := if lead = 0xE0 then 0xA0 else 0x80, high := if lead = 0xED then 0x9F else 0xBF
        value := lead - 0xE0 } := by
  have small : lead < 256 := by omega
  have value := toNat_ofNat_sub small 0xE0 low
  have notTwo : ¬lead < 0xC2 ∧ ¬lead < 0xE0 := by omega
  simp only [begin?, ofNat_lt_iff small, ofNat_beq small, UInt8.reduceToNat, notTwo, if_false,
    decide_eq_true_eq, value]
  by_cases first : lead = 0xE0
  · simp [first]
  · by_cases surrogates : lead = 0xED
    · simp [surrogates]
    · simp [first, surrogates, high]

/-- The sequences of four bytes and their first bytes. -/
theorem begin?_four (start lead : Nat) (low : 0xF0 ≤ lead) (high : lead ≤ 0xF4) :
    begin? start (UInt8.ofNat lead) = some
      { start, first := UInt8.ofNat lead, taken := 1, missing := 3
        low := if lead = 0xF0 then 0x90 else 0x80, high := if lead = 0xF4 then 0x8F else 0xBF
        value := lead - 0xF0 } := by
  have small : lead < 256 := by omega
  have value := toNat_ofNat_sub small 0xF0 low
  have notThree : ¬lead < 0xC2 ∧ ¬lead < 0xE0 ∧ ¬lead = 0xE0 ∧ ¬lead = 0xED ∧ ¬lead < 0xF0 := by
    omega
  simp only [begin?, ofNat_lt_iff small, ofNat_beq small, UInt8.reduceToNat, notThree, if_false,
    decide_eq_true_eq, value]
  by_cases first : lead = 0xF0
  · simp [first]
  · by_cases last : lead = 0xF4
    · simp [last]
    · have middle : lead < 0xF4 := by omega
      simp [first, last, middle]

end Unfinished

/-- Inside a sequence, an admitted continuation byte that is not the last. -/
theorem decodeFrom_continue (position : Nat) {sequence : Unfinished} {value : Nat}
    (rest : List UInt8) (admitted : sequence.admits (continuation value) = true)
    (more : 1 < sequence.missing) :
    decodeFrom position (some sequence) (continuation value :: rest) =
      decodeFrom (position + 1) (some (sequence.extend (continuation value))) rest := by
  rw [decodeFrom, if_pos admitted, if_neg (Nat.not_le.2 more)]

/-- Inside a sequence, an admitted continuation byte that is the last. -/
theorem decodeFrom_finish (position : Nat) {sequence : Unfinished} {value : Nat}
    (rest : List UInt8) (admitted : sequence.admits (continuation value) = true)
    (last : sequence.missing = 1) :
    decodeFrom position (some sequence) (continuation value :: rest) =
      (decodeFrom (position + 1) none rest).map
        (Char.ofNat (sequence.value * 64 + value % 64) :: ·) := by
  rw [decodeFrom, if_pos admitted, if_pos (Nat.le_of_eq last), Unfinished.valueWith,
    toNat_continuation_sub]
  rfl

/-- A first byte above U+007F leads into its sequence. -/
theorem decodeFrom_begin (position : Nat) {lead : Nat} {sequence : Unfinished}
    (rest : List UInt8) (low : 0x80 ≤ lead) (small : lead < 256)
    (begins : Unfinished.begin? position (UInt8.ofNat lead) = some sequence) :
    decodeFrom position none (UInt8.ofNat lead :: rest) =
      decodeFrom (position + 1) (some sequence) rest := by
  rw [decodeFrom, if_neg, begins]
  rw [ofNat_lt_iff small]
  exact Nat.not_lt.2 low

/-- What is said here of a character: wherever its bytes stand in front of others,
they decode to it. -/
def Decodes (c : Char) (bytes : List UInt8) : Prop :=
  ∀ position rest, ∃ behind,
    decodeFrom position none (bytes ++ rest) = (decodeFrom behind none rest).map (c :: ·)

/-- Characters of one byte. -/
theorem decodes_one {c : Char} (small : c.toNat ≤ 0x7F) : Decodes c [UInt8.ofNat c.toNat] := by
  intro position rest
  refine ⟨position + 1, ?_⟩
  have byte : UInt8.ofNat c.toNat < 0x80 := by
    rw [ofNat_lt_iff (by omega)]
    exact Nat.lt_succ_of_le small
  rw [List.singleton_append, decodeFrom, if_pos byte, toNat_ofNat_of_lt (by omega), Char.ofNat_toNat]
  rfl

/-- Characters of two bytes. -/
theorem decodes_two {c : Char} (low : 0x7F < c.toNat) (high : c.toNat ≤ 0x7FF) :
    Decodes c [UInt8.ofNat (c.toNat / 64 % 32 + 0xC0), continuation c.toNat] := by
  intro position rest
  refine ⟨position + 2, ?_⟩
  have begins := Unfinished.begin?_two position (c.toNat / 64 % 32 + 0xC0)
    (by omega) (by omega)
  rw [List.cons_append, List.singleton_append,
    decodeFrom_begin position _ (by omega) (by omega) begins,
    decodeFrom_finish _ _ (admits_continuation (Nat.le_add_left _ _) (by simp; omega)) rfl]
  have value : (c.toNat / 64 % 32 + 0xC0 - 0xC0) * 64 + c.toNat % 64 = c.toNat := by omega
  rw [value, Char.ofNat_toNat]

/-- No character is a surrogate. -/
theorem not_surrogate (c : Char) : c.toNat < 0xD800 ∨ 0xDFFF < c.toNat := by
  rcases c.valid with below | ⟨above, -⟩
  · exact .inl below
  · exact .inr above

/-- No character is beyond the last code point. -/
theorem toNat_lt_limit (c : Char) : c.toNat < 0x110000 := by
  rcases c.valid with below | ⟨-, above⟩
  · exact Nat.lt_trans below (by decide)
  · exact above

/-- Characters of three bytes. -/
theorem decodes_three {c : Char} (low : 0x7FF < c.toNat) (high : c.toNat ≤ 0xFFFF) :
    Decodes c [UInt8.ofNat (c.toNat / 4096 % 16 + 0xE0), continuation (c.toNat / 64),
      continuation c.toNat] := by
  intro position rest
  refine ⟨position + 3, ?_⟩
  have begins := Unfinished.begin?_three position (c.toNat / 4096 % 16 + 0xE0)
    (by omega) (by omega)
  have surrogates := not_surrogate c
  rw [List.cons_append, List.cons_append, List.singleton_append,
    decodeFrom_begin position _ (by omega) (by omega) begins]
  -- The bounds of the second byte: no overlong form, no surrogate.
  rw [decodeFrom_continue _ _ (admits_continuation ?_ ?_) (by simp),
    decodeFrom_finish _ _ (admits_continuation ?_ ?_) rfl]
  · simp only [Unfinished.extend, Unfinished.valueWith, toNat_continuation_sub]
    have value : ((c.toNat / 4096 % 16 + 0xE0 - 0xE0) * 64 + c.toNat / 64 % 64) * 64 +
        c.toNat % 64 = c.toNat := by omega
    rw [value, Char.ofNat_toNat]
  · exact Nat.le_add_left _ _
  · simp [Unfinished.extend]
    omega
  · by_cases first : c.toNat / 4096 % 16 + 0xE0 = 0xE0
    · simp only [if_pos first, UInt8.reduceToNat]
      omega
    · simp only [if_neg first, UInt8.reduceToNat]
      exact Nat.le_add_left _ _
  · by_cases last : c.toNat / 4096 % 16 + 0xE0 = 0xED
    · simp [last]
      omega
    · simp [last]
      omega

/-- Characters of four bytes. -/
theorem decodes_four {c : Char} (low : 0xFFFF < c.toNat) :
    Decodes c [UInt8.ofNat (c.toNat / 262144 % 8 + 0xF0), continuation (c.toNat / 4096),
      continuation (c.toNat / 64), continuation c.toNat] := by
  intro position rest
  refine ⟨position + 4, ?_⟩
  have limit := toNat_lt_limit c
  have begins := Unfinished.begin?_four position (c.toNat / 262144 % 8 + 0xF0)
    (by omega) (by omega)
  rw [List.cons_append, List.cons_append, List.cons_append, List.singleton_append,
    decodeFrom_begin position _ (by omega) (by omega) begins]
  -- The bounds of the second byte: no overlong form, nothing above U+10FFFF.
  rw [decodeFrom_continue _ _ (admits_continuation ?_ ?_) (by simp),
    decodeFrom_continue _ _ (admits_continuation ?_ ?_) (by simp [Unfinished.extend]),
    decodeFrom_finish _ _ (admits_continuation ?_ ?_) rfl]
  · simp only [Unfinished.extend, Unfinished.valueWith, toNat_continuation_sub]
    have value : (((c.toNat / 262144 % 8 + 0xF0 - 0xF0) * 64 + c.toNat / 4096 % 64) * 64 +
        c.toNat / 64 % 64) * 64 + c.toNat % 64 = c.toNat := by omega
    rw [value, Char.ofNat_toNat]
  · exact Nat.le_add_left _ _
  · simp [Unfinished.extend]
    omega
  · exact Nat.le_add_left _ _
  · simp [Unfinished.extend]
    omega
  · by_cases first : c.toNat / 262144 % 8 + 0xF0 = 0xF0
    · simp only [if_pos first, UInt8.reduceToNat]
      omega
    · simp only [if_neg first, UInt8.reduceToNat]
      exact Nat.le_add_left _ _
  · by_cases last : c.toNat / 262144 % 8 + 0xF0 = 0xF4
    · simp [last]
      omega
    · simp [last]
      omega

/-- The bytes of a character decode to it. -/
theorem decodes_utf8EncodeChar (c : Char) : Decodes c (String.utf8EncodeChar c) := by
  simp only [String.utf8EncodeChar]
  split
  · rename_i one
    exact decodes_one one
  · rename_i notOne
    split
    · rename_i two
      exact decodes_two (Nat.not_le.1 notOne) two
    · rename_i notTwo
      split
      · rename_i three
        exact decodes_three (Nat.not_le.1 notTwo) three
      · rename_i notThree
        exact decodes_four (Nat.not_le.1 notThree)

/-- The bytes of a text decode to it, wherever they begin. -/
theorem decodeFrom_encode (position : Nat) (text : List Char) :
    decodeFrom position none (encode text) = .ok text := by
  induction text generalizing position with
  | nil => rfl
  | cons c rest inductionHypothesis =>
      obtain ⟨behind, decoded⟩ := decodes_utf8EncodeChar c position (encode rest)
      have split : encode (c :: rest) = String.utf8EncodeChar c ++ encode rest := rfl
      rw [split, decoded, inductionHypothesis]
      rfl

/-- The bytes of a text decode to it. -/
theorem decode_encode (text : List Char) : decode (encode text) = .ok text :=
  decodeFrom_encode 0 text

/-- The character that is dropped in front of a file. -/
def markCharacter : Char := '\ufeff'

/-- A text without a byte order mark in front. -/
def withoutMark : List Char → List Char
  | [] => []
  | c :: rest => if c = markCharacter then rest else c :: rest

/-- A text whose bytes begin with a byte order mark begins with the character. -/
theorem head_of_byteOrderMark_isPrefix {c : Char} {rest : List Char}
    (begins : byteOrderMark <+: encode (c :: rest)) : c = markCharacter := by
  obtain ⟨others, same⟩ := begins
  have whole := decode_encode (c :: rest)
  have split : byteOrderMark = String.utf8EncodeChar markCharacter := by decide
  obtain ⟨behind, decoded⟩ := decodes_utf8EncodeChar markCharacter 0 others
  rw [← same, split, decode, decoded] at whole
  cases found : decodeFrom behind none others with
  | error fault => simp [found, Except.map] at whole
  | ok text =>
      simp only [found, Except.map, Except.ok.injEq, List.cons.injEq] at whole
      exact whole.1.symm

/-- The bytes of a text do not end inside a byte order mark. -/
theorem head_of_isPrefix_byteOrderMark {c : Char} {rest : List Char}
    (stops : encode (c :: rest) <+: byteOrderMark) :
    c = markCharacter ∧ rest = [] := by
  have whole := decode_encode (c :: rest)
  have candidates : encode (c :: rest) = [] ∨ encode (c :: rest) = [0xEF] ∨
      encode (c :: rest) = [0xEF, 0xBB] ∨ encode (c :: rest) = byteOrderMark := by
    rw [byteOrderMark, List.prefix_cons_iff] at stops
    rcases stops with none | ⟨second, same, stopsSecond⟩
    · exact .inl none
    · rw [same]
      rcases List.prefix_cons_iff.1 stopsSecond with rfl | ⟨third, rfl, stopsThird⟩
      · simp
      · rcases List.prefix_cons_iff.1 stopsThird with rfl | ⟨others, rfl, stopsFourth⟩
        · simp
        · simp [byteOrderMark, List.prefix_nil.1 stopsFourth]
  rcases candidates with none | one | two | three
  · rw [none] at whole
    cases whole
  · rw [one] at whole
    cases whole
  · rw [two] at whole
    cases whole
  · rw [three] at whole
    have decoded : decode byteOrderMark = .ok [markCharacter] := rfl
    rw [decoded] at whole
    simp only [Except.ok.injEq, List.cons.injEq] at whole
    exact ⟨whole.1.symm, whole.2.symm⟩

/-- A file with the bytes of a text holds the text, but for a byte order mark in
front. -/
theorem read_encode (text : List Char) : read (encode text) = .ok (withoutMark text) := by
  cases text with
  | nil => rfl
  | cons c rest =>
      simp only [read, textBytes, withoutMark]
      by_cases marked : c = markCharacter
      · have split : encode (c :: rest) = byteOrderMark ++ encode rest := by
          rw [marked]
          rfl
        rw [if_pos marked]
        split
        · rename_i stops
          rw [(head_of_isPrefix_byteOrderMark (List.isPrefixOf_iff_prefix.1 stops)).2]
          rfl
        · rw [split, if_pos (List.isPrefixOf_iff_prefix.2 (List.prefix_append _ _)),
            List.drop_left, decode_encode]
      · rw [if_neg marked]
        split
        · rename_i stops
          exact absurd (head_of_isPrefix_byteOrderMark (List.isPrefixOf_iff_prefix.1 stops)).1 marked
        · split
          · rename_i begins
            exact absurd (head_of_byteOrderMark_isPrefix (List.isPrefixOf_iff_prefix.1 begins)) marked
          · exact decode_encode _

end Roster.Text.Utf8
