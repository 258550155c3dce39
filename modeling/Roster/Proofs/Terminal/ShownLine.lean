import Mathlib.Data.List.DropRight
import Roster.Proofs.Terminal.Cells

/-!
# Lines that show a text

A line shows a text in a width if the text fits and nothing but spaces stands behind it. Such a
line still shows the text when it is cut at the edge, when some of the blanks behind the text
are taken away, and when it is put in the middle of the width.
-/

namespace Roster

namespace Text

/-- A text without its blanks. -/
def withoutBlanks (text : List Char) : List Char := text.filter fun c => !isBlank c

@[simp] theorem withoutBlanks_append (front behind : List Char) :
    withoutBlanks (front ++ behind) = withoutBlanks front ++ withoutBlanks behind :=
  List.filter_append ..

@[simp] theorem withoutBlanks_spaces (count : Nat) :
    withoutBlanks (List.replicate count ' ') = [] := by
  rw [withoutBlanks, List.filter_eq_nil_iff]
  intro c member
  rw [List.eq_of_mem_replicate member]
  decide

theorem withoutBlanks_flatten (lines : List (List Char)) :
    withoutBlanks lines.flatten = (lines.map withoutBlanks).flatten :=
  List.filter_flatten ..

/-- The blanks of a text are spaces. -/
def OnlySpaces (text : List Char) : Prop := ∀ c ∈ text, isBlank c = true → c = ' '

/-- A text without a separator is its only piece. -/
theorem pieces_of_not_mem {separator : Char} {text : List Char} (absent : separator ∉ text) :
    pieces separator text = [text] := by
  induction text with
  | nil => rfl
  | cons c rest inductionHypothesis =>
      rw [List.mem_cons, not_or] at absent
      rw [pieces, if_neg (Ne.symm absent.1), inductionHypothesis absent.2]

theorem OnlySpaces.not_mem {text : List Char} (spaces : OnlySpaces text) {c : Char}
    (blank : isBlank c = true) (other : c ≠ ' ') : c ∉ text :=
  fun member => other (spaces c member blank)

theorem OnlySpaces.append {front behind : List Char} (first : OnlySpaces front)
    (second : OnlySpaces behind) : OnlySpaces (front ++ behind) := fun c member =>
  (List.mem_append.1 member).elim (first c) (second c)

end Text

namespace Terminal

open Text (withoutBlanks OnlySpaces)

/-- Behind its last word, a text has blanks only. -/
theorem trimEnd_append (text : List Char) :
    trimEnd text ++ text.rtakeWhile Text.isBlank = text :=
  List.rdropWhile_append_rtakeWhile

/-- A text that is trimmed does not end in a blank. -/
theorem isBlank_getLast?_trimEnd (text : List Char) :
    ∀ c ∈ (trimEnd text).getLast?, Text.isBlank c = false := by
  intro c isLast
  have nonempty : trimEnd text ≠ [] := by
    intro none
    simp [none] at isLast
  have last := List.rdropWhile_last_not Text.isBlank text nonempty
  rw [List.getLast?_eq_some_getLast nonempty] at isLast
  obtain rfl := Option.some.inj isLast
  exact Bool.eq_false_iff.2 last

/-- What is trimmed off a text are spaces. -/
theorem exists_trimEnd {text : List Char} (spaces : OnlySpaces text) :
    ∃ count, text = trimEnd text ++ List.replicate count ' ' := by
  refine ⟨(text.rtakeWhile Text.isBlank).length, ?_⟩
  have behind : text.rtakeWhile Text.isBlank =
      List.replicate (text.rtakeWhile Text.isBlank).length ' ' := by
    refine List.eq_replicate_of_mem fun c member => ?_
    exact spaces c ((List.rtakeWhile_suffix _ _).subset member) (List.mem_rtakeWhile_imp member)
  rw [← behind, trimEnd_append]

/-- Spaces behind a text that does not end in a blank are trimmed off. -/
theorem trimEnd_append_spaces {core : List Char}
    (ends : ∀ c ∈ core.getLast?, Text.isBlank c = false) (count : Nat) :
    trimEnd (core ++ List.replicate count ' ') = core := by
  induction count with
  | zero =>
      rw [List.replicate_zero, List.append_nil]
      refine List.rdropWhile_eq_self_iff.2 fun nonempty => ?_
      rw [ends _ (List.getLast?_eq_some_getLast nonempty)]
      decide
  | succ less inductionHypothesis =>
      rw [List.replicate_succ', ← List.append_assoc]
      exact (List.rdropWhile_concat_pos _ _ _ (by decide)).trans inductionHypothesis

/-- A line shows a text in a width: the text fits, and nothing but spaces stands behind it. -/
structure Shows (width : Nat) (core line : List Char) : Prop where
  ends : ∀ c ∈ core.getLast?, Text.isBlank c = false
  fits : clusterCells core ≤ width
  spaces : ∃ count, line = core ++ List.replicate count ' ' ∧
    (count = 0 ∨ core.getLast? ≠ some joiner)

/-- The clusters of a text with spaces behind it. -/
theorem clusters_append_spaces {core : List Char} {count : Nat}
    (free : count = 0 ∨ core.getLast? ≠ some joiner) :
    clusters (core ++ List.replicate count ' ') =
      clusters core ++ List.replicate count (.opened ' ') := by
  induction count generalizing core with
  | zero => simp
  | succ less inductionHypothesis =>
      have noJoiner := free.resolve_left (Nat.succ_ne_zero less)
      have behind := @inductionHypothesis (core ++ [' '])
        (.inr (by rw [List.getLast?_concat]; decide))
      have single : clusters [' '] = [.opened ' '] := by decide
      rw [clusters_append_space noJoiner, single] at behind
      simpa [List.replicate_succ] using behind

/-- Clusters that fit are shown, and then as many others as there is room for. -/
theorem fitting_append {room : Nat} {front : List Cluster} (fits : totalWidth front ≤ room)
    (behind : List Cluster) :
    fitting room (front ++ behind) =
      front.flatMap Cluster.text ++ fitting (room - totalWidth front) behind := by
  induction front generalizing room with
  | nil => simp [totalWidth]
  | cons cluster others inductionHypothesis =>
      rw [totalWidth] at fits
      rw [List.cons_append, fitting, if_pos (by omega), inductionHypothesis (by omega), totalWidth,
        List.flatMap_cons, List.append_assoc, Nat.sub_sub]

/-- Of spaces, as many are shown as there is room for. -/
theorem exists_fitting_spaces (room count : Nat) :
    ∃ shown, fitting room (List.replicate count (.opened ' ')) = List.replicate shown ' ' ∧
      (count = 0 → shown = 0) := by
  induction count generalizing room with
  | zero => exact ⟨0, rfl, fun _ => rfl⟩
  | succ less inductionHypothesis =>
      have single : (Cluster.opened ' ').width = 1 := by decide
      rw [List.replicate_succ, fitting, single]
      by_cases fits : 1 ≤ room
      · obtain ⟨shown, same, -⟩ := inductionHypothesis (room - 1)
        exact ⟨shown + 1, by rw [if_pos fits, same]; rfl, by simp⟩
      · exact ⟨0, by rw [if_neg fits, if_pos (by omega)]; rfl, by simp⟩

namespace Shows

variable {width : Nat} {core line : List Char}

/-- A line that shows a text still shows it when it is cut. -/
theorem clip (shows : Shows width core line) : Shows width core (Terminal.clip width line) := by
  obtain ⟨ends, fits, count, rfl, free⟩ := shows
  refine ⟨ends, fits, ?_⟩
  rw [Terminal.clip]
  split
  · exact ⟨count, rfl, free⟩
  · obtain ⟨shown, same, none⟩ := exists_fitting_spaces (width - clusterCells core) count
    rw [clusters_append_spaces free, fitting_append fits, flatMap_text_clusters, ← clusterCells,
      same]
    exact ⟨shown, rfl, free.imp_left none⟩

/-- A line that shows a text still shows it when some of the blanks behind it are gone. -/
theorem trimExcess (shows : Shows width core line) :
    Shows width core (Terminal.trimExcess width line) := by
  obtain ⟨ends, fits, count, rfl, free⟩ := shows
  refine ⟨ends, fits, ?_⟩
  let gone := min count (core.length + count - width)
  have kept : core.length + count - gone = core.length + (count - gone) := by omega
  refine ⟨count - gone, ?_, free.imp_left (by omega)⟩
  rw [Terminal.trimExcess, trimEnd_append_spaces ends, List.length_append, List.length_replicate,
    Nat.add_sub_cancel_left, kept, List.take_length_add_append, List.take_replicate,
    Nat.min_eq_left (Nat.sub_le ..)]

/-- In the middle of the width a line still shows its text. -/
theorem withoutBlanks_centre (shows : Shows width core line) :
    withoutBlanks (centre width line) = withoutBlanks core := by
  obtain ⟨ends, fits, count, rfl, -⟩ := shows
  have kept : Terminal.clip width core = core :=
    clip_eq_self_iff.2 (.inr fits)
  simp only [centre, trimEnd_append_spaces ends, kept, Text.withoutBlanks_append,
    Text.withoutBlanks_spaces, List.nil_append, List.append_nil]

/-- Blanks apart, a line is the text that it shows. -/
theorem withoutBlanks_eq (shows : Shows width core line) :
    withoutBlanks line = withoutBlanks core := by
  obtain ⟨-, -, count, rfl, -⟩ := shows
  simp

end Shows

/-- No joiner stands in front of a space. -/
def SpacesStandFree (text : List Char) : Prop :=
  ∀ front rest, text = front ++ ' ' :: rest → front.getLast? ≠ some joiner

/-- Between other texts, too, no joiner stands in front of a space. -/
theorem IsTied.spacesStandFree {front middle behind : List Char}
    (tied : IsTied (front ++ middle ++ behind)) : SpacesStandFree middle := by
  rintro before rest rfl ends
  have whole : front ++ (before ++ ' ' :: rest) ++ behind =
      (front ++ before) ++ ' ' :: (rest ++ behind) := by simp
  rw [whole] at tied
  refine tied.getLast?_ne_of_blank (by decide) ?_
  rw [List.getLast?_append, ends, Option.some_or]

/-- A text that fits without the blanks at its end is shown. -/
theorem shows_trimEnd {width : Nat} {line : List Char} (spaces : OnlySpaces line)
    (free : SpacesStandFree line) (fits : clusterCells (trimEnd line) ≤ width) :
    Shows width (trimEnd line) line := by
  obtain ⟨count, same⟩ := exists_trimEnd spaces
  refine ⟨isBlank_getLast?_trimEnd line, fits, count, same, ?_⟩
  cases count with
  | zero => exact .inl rfl
  | succ less => exact .inr (free _ _ same)

/-- The blanks at the end of a text take cells of their own. -/
theorem clusterCells_trimEnd_le {line : List Char} (spaces : OnlySpaces line)
    (free : SpacesStandFree line) : clusterCells (trimEnd line) ≤ clusterCells line := by
  obtain ⟨-, -, count, same, unjoined⟩ := shows_trimEnd spaces free (Nat.le_refl _)
  have whole : clusterCells line =
      clusterCells (trimEnd line) + totalWidth (List.replicate count (.opened ' ')) := by
    conv_lhs => rw [same]
    rw [clusterCells, clusters_append_spaces unjoined, totalWidth_append, clusterCells]
  omega

end Terminal

end Roster
