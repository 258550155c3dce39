import Mathlib.Data.List.Basic
import Roster.Terminal.Display

/-!
# Lines that fit on the screen

A line of an export is shown as it is exactly if the terminal acts on none of its
characters and its clusters fit into the cells of the screen. Any other line is cut
between two of its clusters, and half a cluster that still has a cell shows as a space.
-/

namespace Roster.Terminal

/-- A cluster as it comes about in a text: it is not empty, and a character on its own
takes its own cells. -/
structure Cluster.IsSound (cluster : Cluster) : Prop where
  nonempty : cluster.text ≠ []
  alone : ∀ c, cluster.text = [c] → cluster.width = cellWidth c

theorem Cluster.isSound_opened (c : Char) : (Cluster.opened c).IsSound where
  nonempty := List.cons_ne_nil c []
  alone := fun other same => by
    obtain ⟨rfl, -⟩ := List.cons.inj same
    rfl

/-- A cluster of several characters is sound whatever cells it takes. -/
theorem Cluster.isSound_of_merged {cluster : Cluster} (sound : cluster.IsSound) (c : Char)
    (width : Nat) : IsSound { text := cluster.text ++ [c], width } where
  nonempty := by simp
  alone := fun other same => by
    have lengths := congrArg List.length same
    have positive := List.length_pos_iff.2 sound.nonempty
    simp only [List.length_append, List.length_cons, List.length_nil] at lengths
    omega

/-- The clusters behind a sound one are sound. -/
theorem isSound_of_mem_clustersBehind {current : Cluster} (sound : current.IsSound)
    (measured : Option Char) (joining : Bool) (text : List Char) :
    ∀ cluster ∈ clustersBehind current measured joining text, cluster.IsSound := by
  fun_induction clustersBehind current measured joining text
  case case1 => simpa using sound
  case case7 inductionHypothesis =>
    exact List.forall_mem_cons.2 ⟨sound, inductionHypothesis (Cluster.isSound_opened _)⟩
  -- In all other cases the next character is merged.
  all_goals
    rename_i inductionHypothesis
    exact inductionHypothesis (Cluster.isSound_of_merged sound _ _)

theorem isSound_of_mem_clusters (text : List Char) :
    ∀ cluster ∈ clusters text, cluster.IsSound := by
  cases text with
  | nil => exact List.forall_mem_nil _
  | cons c rest => exact isSound_of_mem_clustersBehind (Cluster.isSound_opened c) _ _ _

/-- The cells of a cluster at most: two for a character, and one for its picture. -/
def widest : Nat := 3

theorem cellWidth_le (c : Char) : cellWidth c ≤ 2 := by
  simp only [cellWidth]
  repeat (split <;> try decide)

/-- A picture is asked for once, and takes one cell more. -/
theorem width_le_of_mem_clustersBehind {current : Cluster} {measured : Option Char}
    (narrow : current.width ≤ widest) (unwidened : measured.isSome = true → current.width < widest)
    (joining : Bool) (text : List Char) :
    ∀ cluster ∈ clustersBehind current measured joining text, cluster.width ≤ widest := by
  fun_induction clustersBehind current measured joining text
  case case1 => simpa using narrow
  case case4 asked _ inductionHypothesis =>
    refine inductionHypothesis (unwidened ?_) (by simp)
    exact Option.isSome_of_any asked
  case case7 inductionHypothesis =>
    refine List.forall_mem_cons.2 ⟨narrow, inductionHypothesis ?_ fun _ => ?_⟩
    · exact Nat.le_succ_of_le (cellWidth_le _)
    · exact Nat.lt_succ_of_le (cellWidth_le _)
  -- In all other cases the next character is merged.
  all_goals
    rename_i inductionHypothesis
    exact inductionHypothesis narrow unwidened

/-- No cluster takes many cells. -/
theorem width_le_of_mem_clusters (text : List Char) :
    ∀ cluster ∈ clusters text, cluster.width ≤ widest := by
  cases text with
  | nil => exact List.forall_mem_nil _
  | cons c rest =>
      exact width_le_of_mem_clustersBehind (Nat.le_succ_of_le (cellWidth_le c))
        (fun _ => Nat.lt_succ_of_le (cellWidth_le c)) _ _

/-- The cells that clusters take one after another. -/
def totalWidth : List Cluster → Nat
  | [] => 0
  | first :: others => first.width + totalWidth others

/-- Clusters that fit are shown. -/
theorem fitting_of_le {room : Nat} {whole : List Cluster} (fits : totalWidth whole ≤ room) :
    fitting room whole = whole.flatMap Cluster.text := by
  induction whole generalizing room with
  | nil => rfl
  | cons cluster others inductionHypothesis =>
      simp only [totalWidth] at fits
      rw [fitting, if_pos (by omega), inductionHypothesis (by omega), List.flatMap_cons]

/-- Clusters that do not fit are cut between two of them. A space stands for a cluster of
which only a part fits. -/
theorem exists_cut {room : Nat} {whole : List Cluster}
    (narrow : ∀ cluster ∈ whole, cluster.width ≤ widest) (exceeds : room < totalWidth whole) :
    ∃ front cluster behind, whole = front ++ cluster :: behind ∧
      room < widest * (front.length + 1) ∧
      (fitting room whole = front.flatMap Cluster.text ∨
        (1 < cluster.width ∧ fitting room whole = front.flatMap Cluster.text ++ [' '])) := by
  induction whole generalizing room with
  | nil => simp [totalWidth] at exceeds
  | cons first others inductionHypothesis =>
      obtain ⟨narrowFirst, narrowOthers⟩ := List.forall_mem_cons.1 narrow
      by_cases fits : first.width ≤ room
      · have rest : room - first.width < totalWidth others := by
          simp only [totalWidth] at exceeds
          omega
        obtain ⟨front, cluster, behind, rfl, long, cut⟩ := inductionHypothesis narrowOthers rest
        refine ⟨first :: front, cluster, behind, rfl, ?_, ?_⟩
        · rw [List.length_cons, Nat.mul_succ]
          omega
        · rw [fitting, if_pos fits, List.flatMap_cons, List.append_assoc]
          simpa using cut
      · refine ⟨[], first, others, rfl, ?_, ?_⟩
        · rw [List.length_nil]
          omega
        · rw [fitting, if_neg fits]
          by_cases none : room = 0
          · simp [none]
          · refine .inr ⟨by omega, ?_⟩
            simp [none]

/-- Every cluster has a character. -/
theorem length_le_flatMap_text {front : List Cluster}
    (sound : ∀ cluster ∈ front, cluster.IsSound) :
    front.length ≤ (front.flatMap Cluster.text).length := by
  induction front with
  | nil => exact Nat.le_refl _
  | cons cluster others inductionHypothesis =>
      obtain ⟨soundFirst, soundOthers⟩ := List.forall_mem_cons.1 sound
      have positive := List.length_pos_iff.2 soundFirst.nonempty
      have rest := inductionHypothesis soundOthers
      rw [List.flatMap_cons, List.length_append, List.length_cons]
      omega

/-- A text that is cut loses at least a cluster, and has at most a space in its place. -/
theorem exists_clip {width : Nat} {text : List Char} (exceeds : width < cells text)
    (exceedsWhole : width < totalWidth (clusters text)) :
    ∃ (front : List Char) (cluster : Cluster) (behind : List Char), cluster.IsSound ∧
      text = front ++ (cluster.text ++ behind) ∧ width < widest * (front.length + 1) ∧
      (clip width text = front ∨ (1 < cluster.width ∧ clip width text = front ++ [' '])) := by
  obtain ⟨front, cluster, behind, split, long, cut⟩ :=
    exists_cut (width_le_of_mem_clusters text) exceedsWhole
  have sound := isSound_of_mem_clusters text
  have several := length_le_flatMap_text fun other (member : other ∈ front) =>
    sound other (split ▸ List.mem_append_left _ member)
  refine ⟨front.flatMap Cluster.text, cluster, behind.flatMap Cluster.text, ?_, ?_, ?_, ?_⟩
  · exact sound cluster (by simp [split])
  · rw [← List.flatMap_cons, ← List.flatMap_append, ← split, flatMap_text_clusters]
  · exact Nat.lt_of_lt_of_le long (Nat.mul_le_mul_left _ (Nat.succ_le_succ several))
  · rwa [clip, if_neg (by omega)]

/-- A text fits into a number of cells exactly if it is not changed by cutting it. -/
theorem clip_eq_self_iff {width : Nat} {text : List Char} :
    clip width text = text ↔ cells text ≤ width ∨ totalWidth (clusters text) ≤ width := by
  constructor
  · intro same
    by_contra exceeds
    rw [not_or, Nat.not_le, Nat.not_le] at exceeds
    obtain ⟨front, cluster, behind, sound, split, -, cut⟩ := exists_clip exceeds.1 exceeds.2
    rw [same] at cut
    rcases cut with whole | ⟨wide, whole⟩
    · have nothing : front ++ (cluster.text ++ behind) = front ++ [] := by
        rw [← split, List.append_nil]
        exact whole
      exact sound.nonempty (List.append_eq_nil_iff.1 (List.append_cancel_left nothing)).1
    · have onlySpace : front ++ (cluster.text ++ behind) = front ++ [' '] := by
        rw [← split]
        exact whole
      have isSpace : cluster.text = [' '] := by
        rcases List.append_eq_singleton_iff.1 (List.append_cancel_left onlySpace) with
          ⟨none, -⟩ | ⟨isSpace, -⟩
        · exact absurd none sound.nonempty
        · exact isSpace
      -- A space on its own takes one cell, so there is no half of it.
      have narrow : cluster.width = 1 := sound.alone ' ' isSpace
      omega
  · rintro (fits | fits)
    · rw [clip, if_pos fits]
    · rw [clip, fitting_of_le fits, flatMap_text_clusters, ite_self]

/-- The terminal acts on no character of a line, and the line fits into the cells of the
screen. The two ways to count the cells differ only for a line that begins with a joiner. -/
structure FitsScreen (line : List Char) : Prop where
  shown : ∀ c ∈ line, isSuppressed c = false
  within : cells line ≤ screenWidth ∨ totalWidth (clusters line) ≤ screenWidth

instance (line : List Char) : Decidable (FitsScreen line) :=
  decidable_of_iff (line.all (fun c => !isSuppressed c) = true ∧
      (cells line ≤ screenWidth ∨ totalWidth (clusters line) ≤ screenWidth))
    ⟨fun fits => ⟨by simpa using fits.1, fits.2⟩,
      fun fits => ⟨by simpa using fits.shown, fits.within⟩⟩

/-- What the screen shows of a line. -/
def shownLine (line : List Char) : List Char := clip screenWidth (visible line)

/-- What is shown of a line is its beginning without the characters that the terminal acts
on. A space may stand for what comes next. -/
theorem exists_shownLine (line : List Char) :
    ∃ front behind, visible line = front ++ behind ∧
      (shownLine line = front ∨ (behind ≠ [] ∧ shownLine line = front ++ [' '])) := by
  by_cases fits : cells (visible line) ≤ screenWidth ∨
      totalWidth (clusters (visible line)) ≤ screenWidth
  · exact ⟨visible line, [], (List.append_nil _).symm, .inl (clip_eq_self_iff.2 fits)⟩
  · rw [not_or, Nat.not_le, Nat.not_le] at fits
    obtain ⟨front, cluster, behind, sound, split, -, cut⟩ := exists_clip fits.1 fits.2
    refine ⟨front, cluster.text ++ behind, split, cut.imp_right fun marked => ⟨?_, marked.2⟩⟩
    exact fun none => sound.nonempty (List.append_eq_nil_iff.1 none).1

/-- A space stands only for what is cut, so cutting makes no line longer. -/
theorem length_shownLine_le_visible (line : List Char) :
    (shownLine line).length ≤ (visible line).length := by
  obtain ⟨front, behind, split, same | ⟨cut, same⟩⟩ := exists_shownLine line
  · rw [same, split, List.length_append]
    omega
  · have positive := List.length_pos_iff.2 cut
    rw [same, split, List.length_append, List.length_append, List.length_singleton]
    omega

/-- No line is shown longer than it is. -/
theorem length_shownLine_le (line : List Char) : (shownLine line).length ≤ line.length :=
  Nat.le_trans (length_shownLine_le_visible line) (List.length_filter_le _ _)

/-- The characters of a line as it is shown are its own, and spaces. -/
theorem mem_of_mem_shownLine {line : List Char} {c : Char} (member : c ∈ shownLine line) :
    c ∈ visible line ∨ c = ' ' := by
  obtain ⟨front, behind, split, same | ⟨-, same⟩⟩ := exists_shownLine line
  · rw [same] at member
    exact .inl (split ▸ List.mem_append_left behind member)
  · rw [same, List.mem_append, List.mem_singleton] at member
    exact member.imp_left fun inside => split ▸ List.mem_append_left behind inside

/-- A line shows as it is exactly if it fits on the screen. -/
theorem shownLine_eq_self_iff {line : List Char} : shownLine line = line ↔ FitsScreen line := by
  constructor
  · intro same
    -- If the terminal acted on a character, the line would show shorter than it is.
    have lengths := length_shownLine_le_visible line
    rw [same] at lengths
    have keepsAll := List.length_filter_eq_length_iff.1
      (Nat.le_antisymm (List.length_filter_le _ line) lengths)
    have allShown : visible line = line := List.filter_eq_self.2 keepsAll
    rw [shownLine, allShown] at same
    exact ⟨fun c member => by simpa using keepsAll c member, clip_eq_self_iff.1 same⟩
  · rintro ⟨shown, within⟩
    have allShown : visible line = line :=
      List.filter_eq_self.2 fun c member => by simp [shown c member]
    rw [shownLine, allShown]
    exact clip_eq_self_iff.2 within

end Roster.Terminal
