import Mathlib.Data.List.Basic
import Roster.Proofs.Terminal.Screen

/-!
# The cells of joined texts

Text is cut and put together at spaces and between clusters. A space opens a cluster of its
own, so the cells of two texts with a space between them add up; and clusters that stand one
behind the other make a text with just these clusters. Only a joiner can spoil this, if it
stands at an end of a text or beside a blank.
-/

namespace Roster.Terminal

/-- The width of clusters one after another. -/
theorem totalWidth_append (front behind : List Cluster) :
    totalWidth (front ++ behind) = totalWidth front + totalWidth behind := by
  induction front with
  | nil => simp [totalWidth]
  | cons first others inductionHypothesis =>
      rw [List.cons_append, totalWidth, totalWidth, inductionHypothesis]
      omega

/-- The cells of the clusters of a text. -/
def clusterCells (text : List Char) : Nat := totalWidth (clusters text)

/-- The cells of a text are those of its clusters, unless it begins with a joiner. -/
theorem cells_eq_clusterCells {text : List Char} (noJoiner : text.head? ≠ some joiner) :
    cells text = clusterCells text := by
  match text with
  | [] => rfl
  | [c] => rfl
  | c :: next :: rest =>
      have other : c ≠ joiner := by simpa using noJoiner
      have sum : ∀ whole, (whole.map Cluster.width).sum = totalWidth whole := by
        intro whole
        induction whole with
        | nil => rfl
        | cons first others inductionHypothesis =>
            rw [List.map_cons, List.sum_cons, inductionHypothesis, totalWidth]
      exact (if_neg other).trans (sum _)

/-- A character is merged into the open cluster, which may get wider by it, or it opens the
next one. Only a joiner merges the character behind it whatever that is. -/
theorem clustersBehind_cons (measured : Option Char) (joining : Bool) (c : Char) :
    (∃ wider measured' joining', (joining' = true → c = joiner) ∧ ∀ current rest,
      clustersBehind current measured joining (c :: rest) =
        clustersBehind ⟨current.text ++ [c], current.width + wider⟩ measured' joining' rest) ∨
    (c ≠ joiner ∧ cellWidth c ≠ 0 ∧ ∀ current rest,
      clustersBehind current measured joining (c :: rest) =
        current :: clustersBehind (.opened c) (some c) false rest) := by
  by_cases isJoining : joining = true
  · exact .inl ⟨0, measured, false, by simp, fun current rest => by
      simp [clustersBehind, isJoining, Cluster.merge]⟩
  · by_cases isJoiner : c = joiner
    · exact .inl ⟨0, measured, true, fun _ => isJoiner, fun current rest => by
        simp [clustersBehind, isJoining, isJoiner, Cluster.merge]⟩
    · by_cases isSelector : c = selector
      · by_cases widened : measured.any widenedRanges.contains = true
        · exact .inl ⟨1, none, false, by simp, fun current rest => by
            rw [clustersBehind, if_neg isJoining, if_neg isJoiner, if_pos isSelector,
              if_pos widened]
            rfl⟩
        · exact .inl ⟨0, measured, false, by simp, fun current rest => by
            rw [clustersBehind, if_neg isJoining, if_neg isJoiner, if_pos isSelector,
              if_neg widened]
            rfl⟩
      · by_cases noCell : cellWidth c = 0
        · exact .inl ⟨0, measured, false, by simp, fun current rest => by
            rw [clustersBehind, if_neg isJoining, if_neg isJoiner, if_neg isSelector, if_pos noCell]
            rfl⟩
        · exact .inr ⟨isJoiner, noCell, fun current rest => by
            rw [clustersBehind, if_neg isJoining, if_neg isJoiner, if_neg isSelector,
              if_neg noCell]⟩

/-- The clusters behind an open one are those of a text of their own. -/
theorem exists_clusters_clustersBehind (current : Cluster) (measured : Option Char)
    (joining : Bool) (text : List Char) :
    ∃ merged others, clustersBehind current measured joining text = merged :: others ∧
      clusters (others.flatMap Cluster.text) = others ∧
      (others.flatMap Cluster.text).head? ≠ some joiner := by
  induction text generalizing current measured joining with
  | nil => exact ⟨current, [], rfl, rfl, by simp⟩
  | cons c rest inductionHypothesis =>
      rcases clustersBehind_cons measured joining c with
        ⟨wider, measured', joining', -, step⟩ | ⟨noJoiner, width, step⟩
      · rw [step]
        exact inductionHypothesis _ _ _
      · refine ⟨current, _, step current rest, ?_⟩
        rw [flatMap_text_clustersBehind, Cluster.opened, List.singleton_append, clusters,
          if_neg width]
        exact ⟨rfl, by simpa using noJoiner⟩

/-- The first clusters of a text are those of its beginning. -/
theorem exists_clustersBehind_eq {current : Cluster} {measured : Option Char} {joining : Bool}
    {text : List Char} {front behind : List Cluster} (nonempty : front ≠ [])
    (split : clustersBehind current measured joining text = front ++ behind) :
    ∃ beginning, clustersBehind current measured joining beginning = front := by
  induction text generalizing current measured joining front with
  | nil =>
      refine ⟨[], ?_⟩
      rcases List.append_eq_singleton_iff.1 split.symm with ⟨none, -⟩ | ⟨whole, -⟩
      · exact absurd none nonempty
      · rw [whole, clustersBehind]
  | cons c rest inductionHypothesis =>
      rcases clustersBehind_cons measured joining c with
        ⟨wider, measured', joining', -, step⟩ | ⟨noJoiner, width, step⟩
      · rw [step] at split
        obtain ⟨beginning, same⟩ := inductionHypothesis nonempty split
        exact ⟨c :: beginning, by rw [step, same]⟩
      · obtain ⟨first, others, rfl⟩ := List.exists_cons_of_ne_nil nonempty
        rw [step, List.cons_append, List.cons.injEq] at split
        obtain ⟨rfl, split⟩ := split
        by_cases alone : others = []
        · exact ⟨[], by rw [alone, clustersBehind]⟩
        · obtain ⟨beginning, same⟩ := inductionHypothesis alone split
          exact ⟨c :: beginning, by rw [step, same]⟩

/-- The first clusters of a text make a text with these clusters. -/
theorem clusters_front {text : List Char} {front behind : List Cluster}
    (split : clusters text = front ++ behind) :
    clusters (front.flatMap Cluster.text) = front := by
  by_cases nonempty : front = []
  · rw [nonempty]
    rfl
  · cases text with
    | nil => exact absurd (List.append_eq_nil_iff.1 split.symm).1 nonempty
    | cons c rest =>
        obtain ⟨beginning, same⟩ := exists_clustersBehind_eq nonempty split
        have whole : clusters (c :: beginning) = front := same
        rw [← whole, flatMap_text_clusters]

/-- The last clusters of a text make a text with these clusters, which begins with no joiner
unless the whole text does. -/
theorem clusters_behind {text : List Char} {front behind : List Cluster}
    (split : clusters text = front ++ behind) :
    clusters (behind.flatMap Cluster.text) = behind ∧
      (text.head? ≠ some joiner → (behind.flatMap Cluster.text).head? ≠ some joiner) := by
  induction front generalizing text with
  | nil =>
      rw [List.nil_append] at split
      rw [← split, flatMap_text_clusters]
      exact ⟨rfl, id⟩
  | cons first others inductionHypothesis =>
      cases text with
      | nil => cases split
      | cons c rest =>
          obtain ⟨merged, behindFirst, whole, same, noJoiner⟩ :=
            exists_clusters_clustersBehind (.opened c) (if cellWidth c = 0 then none else some c)
              false rest
          rw [clusters, whole, List.cons_append, List.cons.injEq] at split
          rw [split.2] at same noJoiner
          obtain ⟨found, begins⟩ := inductionHypothesis same
          exact ⟨found, fun _ => begins noJoiner⟩

/-- Some clusters of a text, one behind the other, make a text with these clusters. -/
theorem clusters_middle {text : List Char} {front middle behind : List Cluster}
    (split : clusters text = front ++ middle ++ behind) :
    clusters (middle.flatMap Cluster.text) = middle :=
  (clusters_behind (clusters_front split)).1

/-- A space opens a cluster of its own, unless a joiner stands in front of it. -/
theorem clustersBehind_append_space {current : Cluster} {measured : Option Char} {joining : Bool}
    {text : List Char} (free : text = [] → joining = false)
    (noJoiner : text.getLast? ≠ some joiner) (rest : List Char) :
    clustersBehind current measured joining (text ++ ' ' :: rest) =
      clustersBehind current measured joining text ++
        clustersBehind (.opened ' ') (some ' ') false rest := by
  induction text generalizing current measured joining with
  | nil =>
      have width : cellWidth ' ' ≠ 0 := by decide
      simp [clustersBehind, free rfl, joiner, selector, width]
  | cons c others inductionHypothesis =>
      have noJoinerBehind : others.getLast? ≠ some joiner := by
        cases others with
        | nil => simp
        | cons d more => rwa [List.getLast?_cons_cons] at noJoiner
      rcases clustersBehind_cons measured joining c with
        ⟨wider, measured', joining', isJoiner, step⟩ | ⟨-, -, step⟩
      · rw [List.cons_append, step, step]
        refine inductionHypothesis (fun none => ?_) noJoinerBehind
        rw [← Bool.not_eq_true]
        intro joins
        exact noJoiner (by rw [none, isJoiner joins, List.getLast?_singleton])
      · rw [List.cons_append, step, step, List.cons_append]
        exact congrArg _ (inductionHypothesis (fun _ => rfl) noJoinerBehind)

theorem clusters_append_space {text : List Char} (noJoiner : text.getLast? ≠ some joiner)
    (rest : List Char) :
    clusters (text ++ ' ' :: rest) = clusters text ++ clusters (' ' :: rest) := by
  cases text with
  | nil => rfl
  | cons c others =>
      have noJoinerBehind : others.getLast? ≠ some joiner := by
        cases others with
        | nil => simp
        | cons d more => rwa [List.getLast?_cons_cons] at noJoiner
      exact clustersBehind_append_space (fun _ => rfl) noJoinerBehind rest

/-- How much wider clusters get by further characters does not depend on what the open one
holds, and on the measured character only in so far as there is a picture of it. -/
theorem totalWidth_clustersBehind (first second : Cluster) {measured other : Option Char}
    (alike : measured.any widenedRanges.contains = other.any widenedRanges.contains)
    (joining : Bool) (text : List Char) :
    totalWidth (clustersBehind first measured joining text) + second.width =
      totalWidth (clustersBehind second other joining text) + first.width := by
  induction text generalizing first second measured other joining with
  | nil => simp [clustersBehind, totalWidth, Nat.add_comm]
  | cons c rest inductionHypothesis =>
      have merged := inductionHypothesis (first.merge c) (second.merge c) alike
      have widened := inductionHypothesis (first.merge c).widen (second.merge c).widen
        (rfl : none.any widenedRanges.contains = none.any widenedRanges.contains)
      simp only [Cluster.merge, Cluster.widen] at merged widened
      simp only [clustersBehind, Cluster.merge, Cluster.widen, alike]
      split
      · exact merged false
      · split
        · exact merged true
        · split
          · split
            · have same := widened false
              omega
            · exact merged false
          · split
            · exact merged false
            · simp only [totalWidth]
              omega

/-- The cells of texts with a space between them. -/
theorem clusterCells_append_space {text rest : List Char} (noJoiner : text.getLast? ≠ some joiner)
    (noJoinerBehind : rest.head? ≠ some joiner) :
    clusterCells (text ++ ' ' :: rest) = clusterCells text + 1 + clusterCells rest := by
  have space : totalWidth (clusters (' ' :: rest)) = 1 + clusterCells rest := by
    have width : cellWidth ' ' = 1 := by decide
    have noPicture : widenedRanges.contains ' ' = false := by decide
    have selectorWidth : cellWidth selector = 0 := by decide
    cases rest with
    | nil => rfl
    | cons c others =>
        have other : c ≠ joiner := by simpa using noJoinerBehind
        have alike : (some ' ').any widenedRanges.contains = none.any widenedRanges.contains := by
          simpa using noPicture
        have same := totalWidth_clustersBehind ((Cluster.opened ' ').merge c) (.opened c) alike
          false others
        simp only [Cluster.merge, Cluster.opened, width] at same
        by_cases noCell : cellWidth c = 0
        · have merges : clusters (' ' :: c :: others) =
              clustersBehind ((Cluster.opened ' ').merge c) (some ' ') false others := by
            simp [clusters, clustersBehind, width, other, noCell, noPicture]
          rw [merges, clusterCells, clusters, if_pos noCell]
          simp only [Cluster.merge, Cluster.opened, width]
          omega
        · have noSelector : c ≠ selector := by
            rintro rfl
            exact noCell selectorWidth
          simp [clusters, clustersBehind, clusterCells, totalWidth, width, other, noSelector,
            noCell, Cluster.opened]
  rw [clusterCells, clusters_append_space noJoiner, totalWidth_append, space, ← clusterCells,
    Nat.add_assoc]

/-- No joiner begins or ends a text, or stands beside a blank in it. -/
def IsTied (text : List Char) : Prop :=
  ∀ front rest, text = front ++ joiner :: rest →
    (∃ c ∈ front.getLast?, Text.isBlank c = false) ∧ ∃ c ∈ rest.head?, Text.isBlank c = false

namespace IsTied

variable {front behind text : List Char} {c : Char}

theorem of_not_mem (absent : joiner ∉ text) : IsTied text := by
  rintro front rest rfl
  exact absurd (List.mem_append_right front List.mem_cons_self) absent

theorem head?_ne (tied : IsTied text) : text.head? ≠ some joiner := by
  intro begins
  obtain ⟨rest, rfl⟩ := List.head?_eq_some_iff.1 begins
  obtain ⟨⟨c, isLast, -⟩, -⟩ := tied [] rest rfl
  cases isLast

/-- No joiner stands in front of a blank. -/
theorem getLast?_ne_of_blank (tied : IsTied (front ++ c :: behind))
    (blank : Text.isBlank c = true) : front.getLast? ≠ some joiner := by
  intro ends
  obtain ⟨before, rfl⟩ := List.getLast?_eq_some_iff.1 ends
  obtain ⟨-, d, isHead, noBlank⟩ := tied before (c :: behind) (by simp)
  obtain rfl := Option.some.inj isHead
  rw [blank] at noBlank
  cases noBlank

/-- No joiner stands behind a blank. -/
theorem head?_ne_of_blank (tied : IsTied (front ++ behind))
    (ends : ∃ c ∈ front.getLast?, Text.isBlank c = true) : behind.head? ≠ some joiner := by
  intro begins
  obtain ⟨rest, rfl⟩ := List.head?_eq_some_iff.1 begins
  obtain ⟨⟨c, isLast, noBlank⟩, -⟩ := tied front rest rfl
  obtain ⟨d, isLast', blank⟩ := ends
  obtain rfl : c = d := Option.some.inj (isLast.symm.trans isLast')
  rw [blank] at noBlank
  cases noBlank

theorem right (tied : IsTied (front ++ behind)) (noJoiner : behind.head? ≠ some joiner) :
    IsTied behind := by
  rintro before rest rfl
  obtain ⟨⟨c, isLast, noBlank⟩, next⟩ := tied (front ++ before) rest (by simp)
  refine ⟨⟨c, ?_, noBlank⟩, next⟩
  have nonempty : before ≠ [] := by
    rintro rfl
    exact noJoiner rfl
  rwa [List.getLast?_append_of_ne_nil _ nonempty] at isLast

theorem left (tied : IsTied (front ++ behind)) (noJoiner : front.getLast? ≠ some joiner) :
    IsTied front := by
  rintro before rest rfl
  obtain ⟨last, c, isHead, noBlank⟩ := tied before (rest ++ behind) (by simp)
  refine ⟨last, c, ?_, noBlank⟩
  have nonempty : rest ≠ [] := by
    rintro rfl
    exact noJoiner (by simp)
  rwa [List.head?_append_of_ne_nil _ nonempty] at isHead

theorem append (first : IsTied front) (second : IsTied behind) : IsTied (front ++ behind) := by
  intro before rest split
  rcases List.append_eq_append_iff.1 split with ⟨middle, rfl, same⟩ | ⟨middle, same, rest_eq⟩
  · obtain ⟨⟨c, isLast, noBlank⟩, next⟩ := second middle rest same
    refine ⟨⟨c, ?_, noBlank⟩, next⟩
    have nonempty : middle ≠ [] := by
      rintro rfl
      cases isLast
    rwa [List.getLast?_append_of_ne_nil _ nonempty]
  · cases middle with
    | nil =>
        rw [List.nil_append] at rest_eq
        exact absurd (by rw [← rest_eq]; rfl) second.head?_ne
    | cons d others =>
        obtain ⟨rfl, rfl⟩ := List.cons.inj rest_eq
        obtain ⟨last, c, isHead, noBlank⟩ := first before others same
        refine ⟨last, c, ?_, noBlank⟩
        have nonempty : others ≠ [] := by
          rintro rfl
          cases isHead
        change c ∈ (others ++ behind).head?
        rwa [List.head?_append_of_ne_nil _ nonempty]

end IsTied

end Roster.Terminal
