import Roster.Proofs.Terminal.ShownLine

/-!
# Wrapping loses only blanks

Wrapped lines show a text word by word: what is cut off a line at the edge, or put around it
in the middle, are spaces. So the lines one behind the other hold the characters of the text
that are not blank, in their order. The blanks of the text are taken to be spaces, which is so
whenever it is printable.
-/

namespace Roster

namespace Terminal

open Text (withoutBlanks OnlySpaces)

/-- Chopped clusters are groups of clusters, each within the width. -/
theorem exists_chopBehind {width : Nat} {group others : List Cluster}
    (narrow : ∀ cluster ∈ others, cluster.width ≤ width) (fits : totalWidth group ≤ width) :
    ∃ groups last, groups.flatten ++ last = group ++ others ∧
      (∀ whole ∈ groups ++ [last], totalWidth whole ≤ width) ∧
      chopBehind width (group.flatMap Cluster.text) (totalWidth group) others =
        (groups ++ [last]).map fun whole => whole.flatMap Cluster.text := by
  induction others generalizing group with
  | nil => exact ⟨[], group, by simp, by simpa using fits, rfl⟩
  | cons cluster others inductionHypothesis =>
      obtain ⟨narrowFirst, narrowOthers⟩ := List.forall_mem_cons.1 narrow
      rw [chopBehind]
      split
      · have alone : totalWidth [cluster] ≤ width := narrowFirst
        obtain ⟨groups, last, whole, within, same⟩ := inductionHypothesis narrowOthers alone
        refine ⟨group :: groups, last, by simp [whole], List.forall_mem_cons.2 ⟨fits, within⟩, ?_⟩
        simpa [totalWidth] using same
      · rename_i room
        have longer : totalWidth (group ++ [cluster]) = totalWidth group + cluster.width :=
          totalWidth_append group [cluster]
        obtain ⟨groups, last, whole, within, same⟩ :=
          @inductionHypothesis (group ++ [cluster]) narrowOthers (by omega)
        refine ⟨groups, last, by simp [whole], within, ?_⟩
        simpa [longer] using same

/-- A chopped text is cut between clusters. Each piece is within the width, and the last one
begins with no joiner. -/
theorem exists_chop {width : Nat} (wide : widest ≤ width) {text : List Char}
    (noJoiner : text.head? ≠ some joiner) :
    ∃ pieces last, chop width text = pieces ++ [last] ∧ pieces.flatten ++ last = text ∧
      last.head? ≠ some joiner ∧ ∀ piece ∈ pieces ++ [last], clusterCells piece ≤ width := by
  have narrow : ∀ cluster ∈ clusters text, cluster.width ≤ width := fun cluster member =>
    Nat.le_trans (width_le_of_mem_clusters text cluster member) wide
  obtain ⟨groups, last, whole, within, same⟩ :=
    @exists_chopBehind width [] (clusters text) narrow (Nat.zero_le _)
  rw [List.nil_append] at whole
  refine ⟨groups.map fun group => group.flatMap Cluster.text, last.flatMap Cluster.text,
    by simpa [chop, totalWidth] using same, ?_, (clusters_behind whole.symm).2 noJoiner, ?_⟩
  · rw [← flatMap_text_clusters text, ← whole]
    simp [List.flatMap, List.flatten_flatten, Function.comp_def]
  · intro piece member
    obtain ⟨group, isGroup, rfl⟩ :
        ∃ group ∈ groups ++ [last], group.flatMap Cluster.text = piece := by
      simpa [eq_comm] using member
    obtain ⟨before, after, split⟩ := List.append_of_mem isGroup
    have cut : clusters text = before.flatten ++ group ++ after.flatten := by
      have joined := congrArg List.flatten split
      simp only [List.flatten_append, List.flatten_cons, List.flatten_nil,
        List.append_nil] at joined
      rw [← whole, joined, List.append_assoc]
    rw [clusterCells, clusters_middle cut]
    exact within group isGroup

/-- A text ends in a blank, unless it is empty. -/
def EndsInBlank (text : List Char) : Prop := ∀ c ∈ text.getLast?, Text.isBlank c = true

theorem EndsInBlank.append {front behind : List Char} (first : EndsInBlank front)
    (second : EndsInBlank behind) : EndsInBlank (front ++ behind) := by
  by_cases nothing : behind = []
  · rwa [nothing, List.append_nil]
  · rwa [EndsInBlank, List.getLast?_append_of_ne_nil _ nothing]

theorem EndsInBlank.right {front behind : List Char} (ends : EndsInBlank (front ++ behind)) :
    EndsInBlank behind := by
  by_cases nothing : behind = []
  · rw [nothing]
    exact nofun
  · rwa [EndsInBlank, List.getLast?_append_of_ne_nil _ nothing] at ends

/-- A text that is empty or ends in a blank. -/
theorem EndsInBlank.eq_nil_or {text : List Char} (ends : EndsInBlank text) :
    text = [] ∨ ∃ front c, text = front ++ [c] ∧ Text.isBlank c = true := by
  rcases List.eq_nil_or_concat' text with none | ⟨front, c, rfl⟩
  · exact .inl none
  · exact .inr ⟨front, c, rfl, ends c (by simp)⟩

/-- Texts that are cut behind blanks: all but the last one end in a blank. -/
def CutBehindBlanks (parts : List (List Char)) : Prop := ∀ part ∈ parts.dropLast, EndsInBlank part

namespace CutBehindBlanks

variable {first second : List Char} {others : List (List Char)}

theorem cons_cons_iff :
    CutBehindBlanks (first :: second :: others) ↔
      EndsInBlank first ∧ CutBehindBlanks (second :: others) := by
  rw [CutBehindBlanks, List.dropLast_cons_cons, List.forall_mem_cons, CutBehindBlanks]

theorem cons (ends : EndsInBlank first) (cut : CutBehindBlanks others) :
    CutBehindBlanks (first :: others) := by
  cases others with
  | nil => exact nofun
  | cons second more => exact cons_cons_iff.2 ⟨ends, cut⟩

theorem replace (cut : CutBehindBlanks (first :: others))
    (ends : EndsInBlank first → EndsInBlank second) : CutBehindBlanks (second :: others) := by
  cases others with
  | nil => exact nofun
  | cons third more =>
      rw [cons_cons_iff] at cut ⊢
      exact cut.imp_left ends

end CutBehindBlanks

/-- The texts into which a line is cut behind blanks are tied if the line is. -/
theorem isTied_of_mem {parts : List (List Char)} (tied : IsTied parts.flatten)
    (cut : CutBehindBlanks parts) : ∀ part ∈ parts, IsTied part := by
  induction parts with
  | nil => exact List.forall_mem_nil _
  | cons first others inductionHypothesis =>
      cases others with
      | nil => simpa using tied
      | cons second more =>
          rw [List.flatten_cons] at tied
          obtain ⟨endsFirst, cutOthers⟩ := CutBehindBlanks.cons_cons_iff.1 cut
          rcases endsFirst.eq_nil_or with rfl | ⟨front, c, rfl, blank⟩
          · exact List.forall_mem_cons.2
              ⟨IsTied.of_not_mem List.not_mem_nil, inductionHypothesis tied cutOthers⟩
          · refine List.forall_mem_cons.2
              ⟨tied.left ?_, inductionHypothesis (tied.right ?_) cutOthers⟩
            · rw [List.getLast?_concat]
              rintro isJoiner
              obtain rfl := Option.some.inj isJoiner
              cases blank
            · exact tied.head?_ne_of_blank ⟨c, by simp, blank⟩

/-- A part of a line: its blanks are spaces, and no joiner stands beside one. -/
structure IsPart (text : List Char) : Prop where
  tied : IsTied text
  spaces : OnlySpaces text

namespace IsPart

variable {text front behind : List Char}

theorem spacesStandFree (isPart : IsPart text) : SpacesStandFree text := by
  have tied : IsTied ([] ++ text ++ []) := by simpa using isPart.tied
  exact tied.spacesStandFree

theorem append (first : IsPart front) (second : IsPart behind) : IsPart (front ++ behind) :=
  ⟨first.tied.append second.tied, first.spaces.append second.spaces⟩

/-- A part that fits without the blanks at its end is shown. -/
theorem shows (isPart : IsPart text) {width : Nat} (fits : clusterCells (trimEnd text) ≤ width) :
    ∃ core, Shows width core text :=
  ⟨_, shows_trimEnd isPart.spaces isPart.spacesStandFree fits⟩

/-- Without the blanks at its end, too, a part begins with no joiner. -/
theorem head?_trimEnd_ne (isPart : IsPart text) : (trimEnd text).head? ≠ some joiner := by
  intro begins
  obtain ⟨rest, same⟩ := List.head?_eq_some_iff.1 begins
  refine isPart.tied.head?_ne ?_
  rw [← trimEnd_append text, same]
  rfl

/-- The cells of a part behind another one that is empty or ends in a blank. -/
theorem clusterCells_append (isPart : IsPart front) (ends : EndsInBlank front)
    (noJoiner : behind.head? ≠ some joiner) :
    clusterCells (front ++ behind) = clusterCells front + clusterCells behind := by
  rcases ends.eq_nil_or with rfl | ⟨before, c, rfl, blank⟩
  · exact (Nat.zero_add _).symm
  · obtain rfl := isPart.spaces c (by simp) blank
    have free := isPart.spacesStandFree before [] rfl
    rw [List.append_assoc, List.singleton_append, clusterCells_append_space free noJoiner,
      clusterCells_append_space free (by simp)]
    rfl

/-- The cells of two parts one behind the other, without the blanks at the end. -/
theorem clusterCells_trimEnd_append_le (first : IsPart front)
    (ends : EndsInBlank front) (second : IsPart behind) :
    clusterCells (trimEnd (front ++ behind)) ≤
      max (clusterCells (trimEnd front)) (clusterCells front + clusterCells (trimEnd behind)) := by
  obtain ⟨count, same⟩ := exists_trimEnd second.spaces
  by_cases onlyBlanks : trimEnd behind = []
  · obtain ⟨before, sameFirst⟩ := exists_trimEnd first.spaces
    have whole : front ++ behind = trimEnd front ++ List.replicate (before + count) ' ' := by
      rw [List.replicate_add, ← List.append_assoc, ← sameFirst, same, onlyBlanks, List.nil_append]
    rw [whole, trimEnd_append_spaces (isBlank_getLast?_trimEnd front)]
    exact Nat.le_max_left _ _
  · have whole : front ++ behind = (front ++ trimEnd behind) ++ List.replicate count ' ' := by
      rw [List.append_assoc, ← same]
    have noBlank : ∀ c ∈ (front ++ trimEnd behind).getLast?, Text.isBlank c = false := by
      rw [List.getLast?_append_of_ne_nil _ onlyBlanks]
      exact isBlank_getLast?_trimEnd behind
    rw [whole, trimEnd_append_spaces noBlank,
      first.clusterCells_append ends second.head?_trimEnd_ne]
    exact Nat.le_max_right _ _

theorem right (isPart : IsPart (front ++ behind)) (noJoiner : behind.head? ≠ some joiner) :
    IsPart behind :=
  ⟨isPart.tied.right noJoiner, fun c member =>
    isPart.spaces c (List.mem_append_right front member)⟩

/-- What stands in the middle of a part is shown if it fits. -/
theorem shows_middle {middle : List Char} (isPart : IsPart (front ++ middle ++ behind))
    {width : Nat} (fits : clusterCells middle ≤ width) : ∃ core, Shows width core middle := by
  have spaces : OnlySpaces middle := fun c member => isPart.spaces c (by simp [member])
  have free := isPart.tied.spacesStandFree
  exact ⟨_, shows_trimEnd spaces free (Nat.le_trans (clusterCells_trimEnd_le spaces free) fits)⟩

/-- A chopped part shows piece by piece, and the last piece is a part again. -/
theorem exists_chop (isPart : IsPart text) {width : Nat} (wide : widest ≤ width) :
    ∃ pieces last, chop width text = pieces ++ [last] ∧ pieces.flatten ++ last = text ∧
      (∀ piece ∈ pieces, ∃ core, Shows width core piece) ∧
      IsPart last ∧ clusterCells (trimEnd last) ≤ width := by
  obtain ⟨pieces, last, chopped, rfl, noJoiner, within⟩ :=
    Terminal.exists_chop wide isPart.tied.head?_ne
  have isLast := isPart.right noJoiner
  refine ⟨pieces, last, chopped, rfl, fun piece member => ?_, isLast, ?_⟩
  · obtain ⟨before, after, rfl⟩ := List.append_of_mem member
    have split : (before ++ piece :: after).flatten ++ last =
        before.flatten ++ piece ++ (after.flatten ++ last) := by simp
    rw [split] at isPart
    exact isPart.shows_middle (within piece (by simp))
  · exact Nat.le_trans (clusterCells_trimEnd_le isLast.spaces isLast.spacesStandFree)
      (within last (by simp))

end IsPart

/-- Filled lines show the parts in their order. -/
theorem shows_fill {width : Nat} (wide : widest ≤ width) {line : List Char}
    {parts : List (List Char)} (isLine : IsPart line) (areParts : ∀ part ∈ parts, IsPart part)
    (cut : CutBehindBlanks (line :: parts))
    (fits : clusterCells (trimEnd line) ≤ width) :
    (∀ filled ∈ fill width line (clusterCells line) parts, ∃ core, Shows width core filled) ∧
      (fill width line (clusterCells line) parts).flatten = line ++ parts.flatten := by
  induction parts generalizing line with
  | nil => exact ⟨by simpa [fill] using isLine.shows fits, by simp [fill]⟩
  | cons part others inductionHypothesis =>
      obtain ⟨isPart, areOthers⟩ := List.forall_mem_cons.1 areParts
      obtain ⟨endsLine, cutOthers⟩ := CutBehindBlanks.cons_cons_iff.1 cut
      have needed : cells (trimEnd part) = clusterCells (trimEnd part) :=
        cells_eq_clusterCells isPart.head?_trimEnd_ne
      have partCells : cells part = clusterCells part := cells_eq_clusterCells isPart.tied.head?_ne
      rw [fill, needed, partCells]
      by_cases room : clusterCells line + clusterCells (trimEnd part) ≤ width
      · have longer := isLine.clusterCells_append endsLine isPart.tied.head?_ne
        have trimmed := isLine.clusterCells_trimEnd_append_le endsLine isPart
        rw [if_pos room, ← longer, List.flatten_cons, ← List.append_assoc]
        exact inductionHypothesis (isLine.append isPart) areOthers
          (cutOthers.replace endsLine.append) (by omega)
      · rw [if_neg room]
        dsimp only
        -- What is finished is the line, unless it is empty.
        generalize isFinished : (if line.isEmpty then [] else [line]) = finished
        have finishedShown : ∀ filled ∈ finished, ∃ core, Shows width core filled := by
          rw [← isFinished]
          cases line with
          | nil => exact List.forall_mem_nil _
          | cons c rest => simpa using isLine.shows fits
        have finishedText : finished.flatten = line := by
          rw [← isFinished]
          cases line <;> simp
        by_cases alone : clusterCells (trimEnd part) ≤ width
        · obtain ⟨shown, text⟩ := inductionHypothesis isPart areOthers cutOthers alone
          rw [if_pos alone, List.flatten_append, finishedText, text, List.flatten_cons]
          exact ⟨List.forall_mem_append.2 ⟨finishedShown, shown⟩, rfl⟩
        · obtain ⟨pieces, last, chopped, whole, piecesShown, isLast, lastFits⟩ :=
            isPart.exists_chop wide
          have lastCells : cells last = clusterCells last :=
            cells_eq_clusterCells isLast.tied.head?_ne
          obtain ⟨lastShown, text⟩ := inductionHypothesis isLast areOthers
            (cutOthers.replace fun endsPart => (whole ▸ endsPart).right) lastFits
          simp only [if_neg alone, chopped, List.getLastD_concat, List.dropLast_concat, lastCells]
          refine ⟨List.forall_mem_append.2
            ⟨List.forall_mem_append.2 ⟨finishedShown, piecesShown⟩, lastShown⟩, ?_⟩
          simp [finishedText, text, ← whole]

/-- The parts into which a line is cut at its words hold the line. -/
theorem cutAtWords_spec (line : List Char) :
    (cutAtWords line).flatten = line ∧ (∀ part ∈ cutAtWords line, part ≠ []) ∧
      CutBehindBlanks (cutAtWords line) := by
  induction line with
  | nil => exact ⟨rfl, List.forall_mem_nil _, nofun⟩
  | cons c rest inductionHypothesis =>
      obtain ⟨whole, nonempty, cut⟩ := inductionHypothesis
      rw [cutAtWords]
      cases found : cutAtWords rest with
      | nil =>
          rw [found] at whole
          exact ⟨by simp [← whole], by simp, nofun⟩
      | cons part others =>
          rw [found] at whole nonempty cut
          obtain ⟨nonemptyPart, nonemptyOthers⟩ := List.forall_mem_cons.1 nonempty
          dsimp only
          split
          · rename_i blank
            rw [Bool.and_eq_true] at blank
            refine ⟨by simpa using whole, List.forall_mem_cons.2 ⟨by simp, nonempty⟩, .cons ?_ cut⟩
            simpa [EndsInBlank] using blank.1
          · refine ⟨by simpa using whole, List.forall_mem_cons.2 ⟨by simp, nonemptyOthers⟩,
              cut.replace fun ends => ?_⟩
            rwa [EndsInBlank, ← List.singleton_append,
              List.getLast?_append_of_ne_nil _ nonemptyPart]

/-- The units of a line hold the line. -/
theorem wrapUnits_spec (line : List Char) :
    (wrapUnits line).flatten = line ∧ CutBehindBlanks (wrapUnits line) := by
  obtain ⟨whole, -, cut⟩ := cutAtWords_spec line
  rw [wrapUnits]
  split
  · rename_i first second others found
    rw [found] at whole cut
    split
    · exact ⟨whole, cut⟩
    · obtain ⟨endsFirst, cutOthers⟩ := CutBehindBlanks.cons_cons_iff.1 cut
      exact ⟨by simpa using whole, cutOthers.replace endsFirst.append⟩
  · exact ⟨whole, cut⟩

/-- A wrapped line shows line by line, and nothing but blanks is lost. -/
theorem shows_wrapLine {width : Nat} (wide : widest ≤ width) {line : List Char}
    (isPart : IsPart line) :
    (∀ wrapped ∈ wrapLine width line, ∃ core, Shows width core wrapped) ∧
      withoutBlanks (wrapLine width line).flatten = withoutBlanks line := by
  have noTabs : expandTabs line = line := by
    rw [expandTabs, Text.pieces_of_not_mem (isPart.spaces.not_mem (by decide) (by decide)),
      joinAtStops]
  obtain ⟨whole, cut⟩ := wrapUnits_spec line
  have areParts : ∀ part ∈ wrapUnits line, IsPart part := fun part member =>
    ⟨isTied_of_mem (whole.symm ▸ isPart.tied) cut part member, fun c inside =>
      isPart.spaces c (whole ▸ List.mem_flatten.2 ⟨part, member, inside⟩)⟩
  have nothing : IsPart [] := ⟨IsTied.of_not_mem List.not_mem_nil, nofun⟩
  obtain ⟨shown, filled⟩ := shows_fill wide nothing areParts (.cons nofun cut) (Nat.zero_le _)
  have cropped : ∀ wrapped core, Shows width core wrapped →
      Shows width core (clip width (trimExcess width wrapped)) :=
    fun _ _ shows => shows.trimExcess.clip
  rw [wrapLine, noTabs]
  constructor
  · intro wrapped member
    obtain ⟨filledLine, isFilled, rfl⟩ := List.mem_map.1 member
    obtain ⟨core, shows⟩ := shown filledLine isFilled
    exact ⟨core, cropped filledLine core shows⟩
  · rw [List.nil_append, whole] at filled
    have unchanged : withoutBlanks line =
        ((fill width [] 0 (wrapUnits line)).map withoutBlanks).flatten := by
      rw [← Text.withoutBlanks_flatten]
      exact congrArg withoutBlanks filled.symm
    rw [unchanged, Text.withoutBlanks_flatten, List.map_map]
    refine congrArg List.flatten (List.map_congr_left fun filledLine isFilled => ?_)
    obtain ⟨core, shows⟩ := shown filledLine isFilled
    exact (cropped filledLine core shows).withoutBlanks_eq.trans shows.withoutBlanks_eq.symm

/-- A wrapped text shows line by line, and nothing but blanks is lost. -/
theorem shows_wrap {width : Nat} (wide : widest ≤ width) {text : List Char} (isPart : IsPart text) :
    (∀ line ∈ wrap width text, ∃ core, Shows width core line) ∧
      withoutBlanks (wrap width text).flatten = withoutBlanks text := by
  rw [wrap, Text.pieces_of_not_mem (isPart.spaces.not_mem (by decide) (by decide)),
    List.flatMap_singleton]
  exact shows_wrapLine wide isPart

/-- The lines of a text one behind the other. -/
theorem withoutBlanks_textOfLines (lines : List (List Char)) :
    withoutBlanks (textOfLines lines).toList = withoutBlanks lines.flatten := by
  rw [textOfLines, String.toList_ofList]
  induction lines with
  | nil => rfl
  | cons line others inductionHypothesis =>
      have newline : withoutBlanks ['\n'] = [] := by decide
      simp only [List.flatMap_cons, List.flatten_cons, Text.withoutBlanks_append, newline,
        List.append_nil, inductionHypothesis]

/-- Wrapping to the screen loses nothing but blanks. -/
theorem withoutBlanks_wrap {width : Nat} (wide : widest ≤ width) {text : List Char}
    (isPart : IsPart text) :
    withoutBlanks (textOfLines (wrap width text)).toList = withoutBlanks text := by
  rw [withoutBlanks_textOfLines, (shows_wrap wide isPart).2]

/-- Nor does wrapping a title above a table, which puts each line in the middle. -/
theorem withoutBlanks_titleLines {title : List Char} (isPart : IsPart title)
    (entries : List Entry) :
    withoutBlanks (textOfLines (titleLines title entries)).toList = withoutBlanks title := by
  have wide : widest ≤ (ColumnWidths.ofEntries entries).total :=
    Nat.le_trans (by decide) (Nat.le_add_left ColumnWidths.frame _)
  obtain ⟨shown, whole⟩ := shows_wrap wide isPart
  rw [withoutBlanks_textOfLines, ← whole, titleLines, Text.withoutBlanks_flatten,
    Text.withoutBlanks_flatten, List.map_map]
  refine congrArg List.flatten (List.map_congr_left fun line member => ?_)
  obtain ⟨core, shows⟩ := shown line member
  exact shows.withoutBlanks_centre.trans shows.withoutBlanks_eq.symm

end Terminal

end Roster
