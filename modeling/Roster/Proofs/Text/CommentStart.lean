import Roster.Proofs.Text.Comment
import Roster.Source

/-!
# Where comments start

A comment starts at a position of a line with a number sign that is the first position or stands
behind a blank character. Cutting looks at one character after another and at the one in front of
it. What it keeps of a line can be told without that walk: the longest beginning of the line in
which no comment starts.
-/

namespace Roster

namespace Text

/-- A comment starts at a position with a number sign that is the first one or stands behind a
blank character. -/
structure IsCommentStart (text : List Char) (position : Nat) : Prop where
  sign : text[position]? = some '#'
  opens : position = 0 ∨ ∃ c, text[position - 1]? = some c ∧ isBlank c = true

/-- In the line no comment starts. -/
def Uncommented (line : List Char) : Prop :=
  ∀ position, ¬IsCommentStart line position

/-- The longest beginning of a line in which no comment starts. -/
structure IsLongestUncommented (line front : List Char) : Prop where
  isBeginning : front <+: line
  uncommented : Uncommented front
  longest : ∀ other, other <+: line → Uncommented other → other.length ≤ front.length

/-- What follows a position does not concern whether a comment starts there. -/
theorem isCommentStart_append_iff {front : List Char} {position : Nat}
    (inside : position < front.length) (behind : List Char) :
    IsCommentStart (front ++ behind) position ↔ IsCommentStart front position := by
  have here : (front ++ behind)[position]? = front[position]? := List.getElem?_append_left inside
  have before : (front ++ behind)[position - 1]? = front[position - 1]? :=
    List.getElem?_append_left (by omega)
  constructor
  · rintro ⟨sign, opens⟩
    exact ⟨here ▸ sign, before ▸ opens⟩
  · rintro ⟨sign, opens⟩
    exact ⟨here ▸ sign, before ▸ opens⟩

theorem IsCommentStart.lt_length {line : List Char} {position : Nat}
    (starts : IsCommentStart line position) : position < line.length :=
  (List.getElem?_eq_some_iff.1 starts.sign).1

/-- No comment starts in the beginning of a line in which none starts. -/
theorem Uncommented.of_beginning {line front : List Char} (uncommented : Uncommented line)
    (isBeginning : front <+: line) : Uncommented front := by
  obtain ⟨behind, rfl⟩ := isBeginning
  intro position starts
  exact uncommented position ((isCommentStart_append_iff starts.lt_length behind).2 starts)

/-- Looking at the last character of what was passed tells whether a comment starts with the
next one. -/
theorem isCommentStart_length_iff (passed : List Char) (c : Char) :
    IsCommentStart (passed ++ [c]) passed.length ↔ startsComment passed.getLast? c = true := by
  have here : (passed ++ [c])[passed.length]? = some c := List.getElem?_concat_length
  have looksBehind : passed.getLast?.all isBlank = true ↔
      passed.length = 0 ∨
        ∃ d, (passed ++ [c])[passed.length - 1]? = some d ∧ isBlank d = true := by
    rcases List.eq_nil_or_concat passed with rfl | ⟨others, last, rfl⟩
    · simp
    · simp
  rw [startsComment, Bool.and_eq_true, beq_iff_eq, looksBehind]
  constructor
  · rintro ⟨sign, opens⟩
    exact ⟨Option.some.inj (here.symm.trans sign), opens⟩
  · rintro ⟨rfl, opens⟩
    exact ⟨here, opens⟩

/-- With one character more, no comment starts exactly if none started before and none starts
with the character. -/
theorem uncommented_concat_iff {passed : List Char} {c : Char} :
    Uncommented (passed ++ [c]) ↔
      Uncommented passed ∧ startsComment passed.getLast? c = false := by
  constructor
  · intro uncommented
    refine ⟨uncommented.of_beginning (List.prefix_append passed [c]), ?_⟩
    rw [Bool.eq_false_iff]
    exact fun starts => uncommented _ ((isCommentStart_length_iff passed c).2 starts)
  · rintro ⟨uncommented, goesOn⟩ position starts
    have inside := starts.lt_length
    rw [List.length_append, List.length_singleton] at inside
    rcases Nat.lt_or_eq_of_le (Nat.le_of_lt_succ inside) with before | rfl
    · exact uncommented position ((isCommentStart_append_iff before [c]).1 starts)
    · rw [(isCommentStart_length_iff passed c).1 starts] at goesOn
      cases goesOn

/-- No comment starts in what was passed together with what is kept behind it. -/
theorem Uncommented.append_cutCommentAfter {passed : List Char} (uncommented : Uncommented passed)
    (line : List Char) : Uncommented (passed ++ cutCommentAfter passed.getLast? line) := by
  induction line generalizing passed with
  | nil => rwa [cutCommentAfter, List.append_nil]
  | cons c rest inductionHypothesis =>
      rw [cutCommentAfter]
      split
      · rwa [List.append_nil]
      · rename_i goesOn
        have longer : Uncommented (passed ++ [c]) :=
          uncommented_concat_iff.2 ⟨uncommented, Bool.eq_false_iff.2 goesOn⟩
        have kept := inductionHypothesis longer
        rwa [List.getLast?_concat, List.append_assoc, List.singleton_append] at kept

/-- A beginning with which no comment starts behind what was passed is kept. -/
theorem isPrefix_cutCommentAfter {passed front line : List Char} (isBeginning : front <+: line)
    (uncommented : Uncommented (passed ++ front)) :
    front <+: cutCommentAfter passed.getLast? line := by
  induction line generalizing passed front with
  | nil =>
      rw [List.prefix_nil.1 isBeginning]
      exact List.nil_prefix
  | cons c rest inductionHypothesis =>
      cases front with
      | nil => exact List.nil_prefix
      | cons d others =>
          obtain ⟨rfl, isRest⟩ := List.cons_prefix_cons.1 isBeginning
          rw [List.append_cons] at uncommented
          have goesOn : startsComment passed.getLast? d = false :=
            (uncommented_concat_iff.1 (uncommented.of_beginning (List.prefix_append _ others))).2
          have kept := inductionHypothesis isRest uncommented
          rw [List.getLast?_concat] at kept
          rw [cutCommentAfter, goesOn]
          exact List.cons_prefix_cons.2 ⟨rfl, kept⟩

theorem uncommented_nil : Uncommented [] :=
  fun _ starts => absurd starts.lt_length (Nat.not_lt_zero _)

/-- Cutting keeps the longest beginning in which no comment starts. -/
theorem isLongestUncommented_cutComment (line : List Char) :
    IsLongestUncommented line (cutComment line) where
  isBeginning := cutCommentAfter_isPrefix none line
  uncommented := uncommented_nil.append_cutCommentAfter line
  longest := by
    intro other isBeginning uncommented
    have kept : other <+: cutCommentAfter [].getLast? line :=
      isPrefix_cutCommentAfter isBeginning uncommented
    exact kept.length_le

/-- The longest beginning is all of the line exactly if no comment starts in the line. -/
theorem IsLongestUncommented.eq_line_iff {line front : List Char}
    (isLongest : IsLongestUncommented line front) : front = line ↔ Uncommented line := by
  constructor
  · rintro rfl
    exact isLongest.uncommented
  · intro uncommented
    exact isLongest.isBeginning.eq_of_length_le
      (isLongest.longest line (List.prefix_refl line) uncommented)

end Text

/-- Cutting a line keeps its longest beginning in which no comment starts. So nothing more is cut
from what is left, a line without a comment start is left as it is, and no other is. The words
that are left are those in front of the first one that begins with a number sign. -/
theorem cutting_keeps_longest (line : List Char) :
    Text.IsLongestUncommented line (Text.cutComment line) ∧
      Text.cutComment (Text.cutComment line) = Text.cutComment line ∧
      (Text.cutComment line = line ↔ Text.Uncommented line) ∧
      wordsOf (Text.cutComment line) =
        (wordsOf line).takeWhile fun word => !Text.beginsWithSign word.toList := by
  have isLongest := Text.isLongestUncommented_cutComment line
  have again := Text.isLongestUncommented_cutComment (Text.cutComment line)
  refine ⟨isLongest, again.eq_line_iff.2 isLongest.uncommented, isLongest.eq_line_iff, ?_⟩
  have sameTest : (fun word : String => !Text.beginsWithSign word.toList) ∘ String.ofList =
      fun word => !Text.beginsWithSign word := by
    funext word
    rw [Function.comp_apply, String.toList_ofList]
  rw [wordsOf, wordsOf, Text.words_cutComment, List.takeWhile_map, sameTest]

/-- A number sign inside a word starts no comment. -/
example : Text.cutComment "a#b\t#c #d".toList = "a#b\t".toList := by decide

end Roster
