import Roster.Proofs.Terminal.Wrapping
import Roster.Text.CharacterClass

/-!
# Legible text

The only blank among the printable characters is the space, and the terminal acts on none of
them. So a printable text is shown with all its characters, in lines that are broken at spaces.
-/

namespace Roster.Text

/-- A character beyond ASCII is not printable if it lies in one of the ranges. -/
theorem isPrintable_eq_false {range : Nat × Nat} {c : Char} (listed : range ∈ unprintableRanges)
    (beyond : 0x7F ≤ range.1) (inside : range.1 ≤ c.toNat ∧ c.toNat ≤ range.2) :
    isPrintable c = false := by
  rw [isPrintable, if_neg (by omega), CodeRanges.contains,
    List.any_eq_true.2 ⟨range, listed, by simpa using inside⟩]
  rfl

/-- No printable character stands in front of the space. -/
theorem space_le_of_isPrintable {c : Char} (printable : isPrintable c = true) :
    0x20 ≤ c.toNat := by
  by_cases ascii : c.toNat < 0x7F
  · simpa [isPrintable, ascii] using printable
  · omega

/-- The only blank character that is printable is the space. -/
theorem eq_space_of_isPrintable {c : Char} (printable : isPrintable c = true)
    (blank : isBlank c = true) : c = ' ' := by
  have outside : ∀ range ∈ [(0x7F, 0xA0), (0x1680, 0x1680), (0x1FFF, 0x200F), (0x2028, 0x202F),
      (0x205F, 0x206F), (0x2FFC, 0x3000)], ¬ (range.1 ≤ c.toNat ∧ c.toNat ≤ range.2) := by
    intro range member inside
    have listed : ∀ range ∈ [(0x7F, 0xA0), (0x1680, 0x1680), (0x1FFF, 0x200F),
        (0x2028, 0x202F), (0x205F, 0x206F), (0x2FFC, 0x3000)],
        range ∈ unprintableRanges ∧ 0x7F ≤ range.1 := by decide +kernel
    obtain ⟨isListed, beyond⟩ := listed range member
    rw [isPrintable_eq_false isListed beyond inside] at printable
    cases printable
  have inAscii := space_le_of_isPrintable printable
  have code : c.toNat = ' '.toNat := by
    simp only [List.forall_mem_cons, not_and, Nat.not_le] at outside
    simp only [isBlank, Bool.or_eq_true, Bool.and_eq_true, decide_eq_true_eq, beq_iff_eq] at blank
    have space : ' '.toNat = 0x20 := rfl
    omega
  exact Char.toNat_inj.1 code

end Roster.Text
namespace Roster.Terminal

open Text (OnlySpaces)

open Text (isBlank withoutBlanks OnlySpaces)

/-- The terminal acts on no printable character. -/
theorem isSuppressed_of_isPrintable {c : Char} (printable : Text.isPrintable c = true) :
    isSuppressed c = false := by
  have inAscii := Text.space_le_of_isPrintable printable
  rw [← Bool.not_eq_true]
  intro suppressed
  simp only [isSuppressed, Bool.or_eq_true, Bool.and_eq_true, decide_eq_true_eq, beq_iff_eq]
    at suppressed
  omega

theorem isPrintable_joiner : Text.isPrintable joiner = false := by decide +kernel

/-- A text that can be wrapped and shown: it is a part, and the terminal acts on none of its
characters. -/
structure IsLegible (text : List Char) : Prop extends IsPart text where
  shown : ∀ c ∈ text, isSuppressed c = false

namespace IsLegible

variable {text front behind : List Char}

theorem nil : IsLegible [] := ⟨⟨IsTied.of_not_mem List.not_mem_nil, nofun⟩, nofun⟩

theorem append (first : IsLegible front) (second : IsLegible behind) :
    IsLegible (front ++ behind) :=
  ⟨first.toIsPart.append second.toIsPart, fun c member =>
    (List.mem_append.1 member).elim (first.shown c) (second.shown c)⟩

theorem flatMap {texts : List (List Char)} {shown : List Char → List Char}
    (legible : ∀ text ∈ texts, IsLegible (shown text)) : IsLegible (texts.flatMap shown) := by
  induction texts with
  | nil => exact .nil
  | cons first others inductionHypothesis =>
      obtain ⟨legibleFirst, legibleOthers⟩ := List.forall_mem_cons.1 legible
      exact legibleFirst.append (inductionHypothesis legibleOthers)

theorem singleton {c : Char} (noJoiner : c ≠ joiner) (noBlank : Text.isBlank c = false)
    (shown : isSuppressed c = false) : IsLegible [c] where
  tied := IsTied.of_not_mem (by simpa using Ne.symm noJoiner)
  spaces := by simp [OnlySpaces, noBlank]
  shown := by simpa using shown

/-- A printable text is legible. -/
theorem of_isPrintable (printable : ∀ c ∈ text, Text.isPrintable c = true) : IsLegible text where
  tied := IsTied.of_not_mem fun member => by
    have isPrintable := printable joiner member
    rw [isPrintable_joiner] at isPrintable
    cases isPrintable
  spaces := fun c member blank => Text.eq_space_of_isPrintable (printable c member) blank
  shown := fun c member => isSuppressed_of_isPrintable (printable c member)

/-- Nothing is taken out of a text that is legible. -/
theorem visible_eq (legible : IsLegible text) : visible text = text :=
  List.filter_eq_self.2 fun c member => by simp [legible.shown c member]

end IsLegible

end Roster.Terminal
