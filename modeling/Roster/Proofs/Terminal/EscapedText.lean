import Roster.Proofs.Terminal.MarkupPieces

/-!
# Escaped text in a markup

Escaping takes the meaning from the tags of a text, and rendering takes the backslashes away
that escaping has put in. What is left of the text are its pieces: it is cut in front of each
tag and behind it, and each piece is shown for itself. Only the backslashes at the very end of
the text depend on what the markup goes on with.
-/

namespace Roster.Terminal

namespace Markup

open Emoji (Pictures IsGallery IsPlain)

variable {pictures : Pictures}

/-- The number of backslashes at the end of a text. -/
def trailing (text : List Char) : Nat := (text.rtakeWhile (· = '\\')).length

theorem trailing_backslashes (count : Nat) : trailing (backslashes count) = count := by
  have all : (backslashes count).rtakeWhile (· = '\\') = backslashes count :=
    List.rtakeWhile_eq_self_iff.2 fun c member => by
      simpa using List.eq_of_mem_replicate member
  rw [trailing, all, backslashes, List.length_replicate]

/-- What stands in front of another character does not count. -/
theorem trailing_append_cons {c : Char} (other : c ≠ '\\') (front rest : List Char) :
    trailing (front ++ c :: rest) = trailing rest := by
  induction rest using List.reverseRecOn with
  | nil => simp [trailing, other]
  | append_singleton rest last inductionHypothesis =>
      have split : front ++ c :: (rest ++ [last]) = (front ++ c :: rest) ++ [last] := by simp
      rw [trailing, trailing, split, List.rtakeWhile_concat, List.rtakeWhile_concat]
      split
      · simpa [trailing] using inductionHypothesis
      · rfl

theorem endsInOneBackslash_eq (text : List Char) :
    endsInOneBackslash text = decide (trailing text = 1) := by
  have reversed : trailing text = (text.reverse.takeWhile (· = '\\')).length := by
    simp [trailing, List.rtakeWhile]
  rw [reversed, endsInOneBackslash]
  match text.reverse with
  | [] => rfl
  | [c] => by_cases isLast : c = '\\' <;> simp [isLast]
  | c :: d :: more =>
      by_cases isLast : c = '\\'
      · by_cases isNext : d = '\\' <;> simp [isLast, isNext]
      · simp [isLast]

/-- A text that closes no bracket does not close one that is left open. -/
theorem closes_append {tail : List Char} (never : closes tail = false) (text : List Char) :
    closes (text ++ tail) = closes text := by
  induction text with
  | nil => exact never
  | cons c rest inductionHypothesis => simp [closes, inductionHypothesis]

theorem isTag_append {tail : List Char} (never : closes tail = false) (noTag : isTag tail = false)
    (text : List Char) : isTag (text ++ tail) = isTag text := by
  cases text with
  | nil => exact noTag
  | cons c rest => simp [isTag, closes_append never]

theorem closes_backslashes_append (count : Nat) (text : List Char) :
    closes (backslashes count ++ text) = closes text := by
  induction count with
  | zero => rfl
  | succ less inductionHypothesis =>
      simpa [backslashes, List.replicate_succ, closes] using inductionHypothesis

/-- Escaping closes no bracket and opens none. -/
theorem closes_escapeTags (count : Nat) (text : List Char) :
    closes (escapeTags count text) = closes text := by
  induction text generalizing count with
  | nil => rfl
  | cons c rest inductionHypothesis =>
      by_cases isBackslash : c = '\\'
      · simp [escapeTags, isBackslash, closes, inductionHypothesis]
      · by_cases tag : (c = '[' && isTag rest) = true
        · have isBracket : c = '[' := by simpa using (Bool.and_eq_true_iff.1 tag).1
          rw [escapeTags, if_neg isBackslash, if_pos tag, closes_backslashes_append, isBracket]
          rfl
        · rw [escapeTags, if_neg isBackslash, if_neg tag, closes, closes, inductionHypothesis]

/-- A tag is closed. -/
theorem closes_of_isTag {text : List Char} (tag : isTag text = true) : closes text = true := by
  cases text with
  | nil => cases tag
  | cons c rest =>
      obtain ⟨begins, closed⟩ := Bool.and_eq_true_iff.1 tag
      have noBracket : c ≠ '[' := by
        rintro rfl
        cases begins
      simp [closes, closed, noBracket]

theorem trailing_append_of_closes {text : List Char} (closed : closes text = true)
    (front : List Char) : trailing (front ++ text) = trailing text := by
  have inside : ']' ∈ text := by
    induction text with
    | nil => cases closed
    | cons c rest inductionHypothesis =>
        rcases Bool.or_eq_true_iff.1 closed with isBracket | behind
        · simp [of_decide_eq_true isBracket]
        · exact List.mem_cons_of_mem c (inductionHypothesis (Bool.and_eq_true_iff.1 behind).2)
  obtain ⟨before, behind, rfl⟩ := List.append_of_mem inside
  rw [← List.append_assoc, trailing_append_cons (by decide), trailing_append_cons (by decide)]

theorem isTag_escapeTags (text : List Char) : isTag (escapeTags 0 text) = isTag text := by
  cases text with
  | nil => rfl
  | cons c rest =>
      by_cases isBackslash : c = '\\'
      · rw [escapeTags, if_pos isBackslash, isBackslash]
        rfl
      · by_cases tag : (c = '[' && isTag rest) = true
        · have isBracket : c = '[' := by simpa using (Bool.and_eq_true_iff.1 tag).1
          rw [escapeTags, if_neg isBackslash, if_pos tag, isBracket]
          rfl
        · rw [escapeTags, if_neg isBackslash, if_neg tag, isTag, isTag, closes_escapeTags]

/-- A text as it is cut in front of each tag and behind it. `inTag` tells whether the text begins
inside a tag. -/
def cutAtTags (inTag : Bool) : List Char → List (List Char)
  | [] => [[]]
  | c :: rest =>
    if inTag then
      if c = ']' then [c] :: cutAtTags false rest else join c (cutAtTags true rest)
    else if c = '[' && isTag rest then [] :: join c (cutAtTags true rest)
    else join c (cutAtTags false rest)

@[simp] theorem flatten_join (c : Char) (pieces : List (List Char)) :
    (join c pieces).flatten = c :: pieces.flatten := by
  cases pieces <;> rfl

/-- Cutting keeps the text. -/
theorem flatten_cutAtTags (inTag : Bool) (text : List Char) :
    (cutAtTags inTag text).flatten = text := by
  induction text generalizing inTag with
  | nil => rfl
  | cons c rest inductionHypothesis =>
      rw [cutAtTags]
      split
      · split <;> simp [inductionHypothesis]
      · split <;> simp [inductionHypothesis]

/-- What a markup may go on with behind a foreign text: neither does it make a tag of the text,
nor does it show anything else but backslashes in the same piece. -/
structure IsContinuation (tail : List Char) : Prop where
  never : closes tail = false
  noTag : isTag tail = false
  begins : ∀ count, ∃ less others,
    shownPieces (.plain count) tail = backslashes less :: others

theorem isContinuation_nil : IsContinuation [] :=
  ⟨rfl, rfl, fun count => ⟨count, [], rfl⟩⟩

/-- Backslashes may stand in front of what a markup goes on with. -/
theorem IsContinuation.backslashes {tail : List Char} (continues : IsContinuation tail)
    (more : Nat) : IsContinuation (backslashes more ++ tail) where
  never := (closes_backslashes_append more tail).trans continues.never
  noTag := by
    cases more with
    | zero => exact continues.noTag
    | succ less => rfl
  begins := fun count => by
    rw [shownPieces_backslashes_append]
    exact continues.begins (count + more)

/-- A text that is cut into pieces and ends in a number of backslashes shows, as a part of a
markup, what its pieces show. Behind the backslashes the markup goes on. -/
def ShowsAs (pictures : Pictures) (text : List Char) (cut : List (List Char)) (ending : Nat)
    (rendered : List Char → List (List Char)) : Prop :=
  ∃ pieces, pieces.flatten ++ backslashes ending = text ∧
    shownText pictures cut = shownText pictures pieces ++ backslashes ending ∧
    ∀ tail, IsContinuation tail → shownText pictures (rendered tail) =
      shownText pictures pieces ++ shownText pictures (shownPieces (.plain ending) tail)

namespace ShowsAs

variable {text : List Char} {cut : List (List Char)} {ending : Nat}
  {rendered other : List Char → List (List Char)}

theorem congr (shows : ShowsAs pictures text cut ending rendered)
    (same : ∀ tail, IsContinuation tail →
      shownText pictures (other tail) = shownText pictures (rendered tail)) :
    ShowsAs pictures text cut ending other := by
  obtain ⟨pieces, whole, shown, goesOn⟩ := shows
  exact ⟨pieces, whole, shown, fun tail continues => (same tail continues).trans
    (goesOn tail continues)⟩

/-- A piece in front shows for itself. -/
theorem cons (shows : ShowsAs pictures text cut ending rendered) (piece : List Char) :
    ShowsAs pictures (piece ++ text) (piece :: cut) ending fun tail => piece :: rendered tail := by
  obtain ⟨pieces, rfl, shown, goesOn⟩ := shows
  refine ⟨piece :: pieces, by simp, ?_, fun tail continues => ?_⟩
  · exact (congrArg _ shown).trans (List.append_assoc ..).symm
  · exact (congrArg _ (goesOn tail continues)).trans (List.append_assoc ..).symm

end ShowsAs

/-- Backslashes at the end of a text show as it is told by what the markup goes on with. -/
theorem showsAs_backslashes (front : List Char) (ending : Nat) :
    ShowsAs pictures (front ++ backslashes ending) [front ++ backslashes ending] ending fun tail =>
      joinAll front (shownPieces (.plain ending) tail) := by
  refine ⟨[front], by simp, ?_, fun tail continues => ?_⟩
  · simp [shownText, shownPiece_append_backslashes]
  · obtain ⟨less, others, begins⟩ := continues.begins ending
    simp [begins, joinAll_cons, shownText, shownPiece_append_backslashes, shownPiece_backslashes]

section Steps

variable {rest tail : List Char} {c : Char}

/-- The backslashes in front of a tag and the one that escapes it show at half their number. -/
theorem shownPieces_escapeTags_tag (continues : IsContinuation tail) (tag : isTag rest = true)
    (count : Nat) :
    shownPieces (.plain count) (escapeTags count ('[' :: rest) ++ tail) =
      [] :: backslashes count ::
        join '[' (shownPieces .escapedTag (escapeTags 0 rest ++ tail)) := by
  have stillTag : isTag (escapeTags 0 rest ++ tail) = true := by
    rw [isTag_append continues.never continues.noTag, isTag_escapeTags, tag]
  have odd : (count + (count + 1)) % 2 = 1 := by omega
  have half : (count + (count + 1)) / 2 = count := by omega
  rw [escapeTags, if_neg (by decide), if_pos (by simpa using tag), List.append_assoc,
    shownPieces_backslashes_append, List.cons_append, shownPieces, if_neg (by decide),
    if_pos (by simpa using stillTag), odd, half]
  rfl

theorem shownPieces_escapeTags_other (continues : IsContinuation tail) (noBackslash : c ≠ '\\')
    (noTag : (c = '[' && isTag rest) = false) (count : Nat) :
    shownPieces (.plain count) (escapeTags count (c :: rest) ++ tail) =
      joinAll (backslashes count)
        (join c (shownPieces (.plain 0) (escapeTags 0 rest ++ tail))) := by
  have stillNoTag : (c = '[' && isTag (escapeTags 0 rest ++ tail)) = false := by
    rw [isTag_append continues.never continues.noTag, isTag_escapeTags, noTag]
  rw [escapeTags, if_neg noBackslash, noTag, if_neg Bool.false_ne_true, List.cons_append,
    shownPieces, if_neg noBackslash, stillNoTag, if_neg Bool.false_ne_true]

/-- Inside a tag nothing is escaped, and each character shows. -/
theorem exists_shownPieces_escapeTags_inside (noBracket : c ≠ '[') (inside : c ≠ ']') (count : Nat)
    (rest : List Char) :
    ∃ next, ∀ tail, shownPieces .escapedTag (escapeTags count (c :: rest) ++ tail) =
      join c (shownPieces .escapedTag (escapeTags next rest ++ tail)) := by
  have step : ∀ text, shownPieces .escapedTag (c :: text) =
      join c (shownPieces .escapedTag text) := fun text => by rw [shownPieces, if_neg inside]
  by_cases isBackslash : c = '\\'
  · refine ⟨count + 1, fun tail => ?_⟩
    rw [escapeTags, if_pos isBackslash, List.cons_append, step]
  · refine ⟨0, fun tail => ?_⟩
    rw [escapeTags, if_neg isBackslash, if_neg (by simp [noBracket]), List.cons_append, step]

end Steps

/-- Rendering an escaped text shows the pieces of the text. `front` is what the current piece
holds already, in front of a number of backslashes. -/
theorem showsAs_escapeTags (pictures : Pictures) (text : List Char) :
    (∀ count front, ShowsAs pictures (front ++ backslashes count ++ text)
      (joinAll (front ++ backslashes count) (cutAtTags false text))
      (trailing (backslashes count ++ text)) fun tail =>
        joinAll front (shownPieces (.plain count) (escapeTags count text ++ tail))) ∧
    (closes text = true → ∀ count front, ShowsAs pictures (front ++ text)
      (joinAll front (cutAtTags true text)) (trailing text) fun tail =>
        joinAll front (shownPieces .escapedTag (escapeTags count text ++ tail))) := by
  -- Both places go into one induction: a tag begins outside, and behind its end the text is
  -- outside again.
  induction text with
  | nil =>
      refine ⟨fun count front => ?_, nofun⟩
      simpa [trailing_backslashes, cutAtTags, joinAll_cons, escapeTags] using
        showsAs_backslashes front count
  | cons c rest inductionHypothesis =>
      obtain ⟨outside, inside⟩ := inductionHypothesis
      constructor
      · intro count front
        by_cases isBackslash : c = '\\'
        · have more : backslashes (count + 1) = backslashes count ++ [c] := by
            rw [isBackslash]
            exact List.replicate_succ'
          simpa [more, cutAtTags, isBackslash, escapeTags, shownPieces, joinAll_append,
            joinAll_singleton] using outside (count + 1) front
        · rw [trailing_append_cons isBackslash]
          cases tag : (c = '[' && isTag rest) with
          | true =>
              obtain ⟨isBracket, isTag⟩ := Bool.and_eq_true_iff.1 tag
              obtain rfl := of_decide_eq_true isBracket
              have step := (inside (closes_of_isTag isTag) 0 ['[']).cons
                (front ++ backslashes count)
              rw [cutAtTags, if_neg Bool.false_ne_true, if_pos tag, joinAll_cons, List.append_nil]
              refine step.congr fun tail continues => ?_
              rw [shownPieces_escapeTags_tag continues isTag, joinAll_cons, List.append_nil]
              simp [shownText, shownPiece_append_backslashes, shownPiece_backslashes,
                joinAll_singleton]
          | false =>
              have step := outside 0 (front ++ backslashes count ++ [c])
              have cut : cutAtTags false (c :: rest) = join c (cutAtTags false rest) := by
                rw [cutAtTags, if_neg Bool.false_ne_true, tag, if_neg Bool.false_ne_true]
              have nothing : backslashes 0 = [] := rfl
              rw [nothing, List.append_nil, List.nil_append, List.append_assoc, joinAll_append,
                joinAll_singleton, ← cut] at step
              refine step.congr fun tail continues => ?_
              rw [shownPieces_escapeTags_other continues isBackslash tag]
              simp [joinAll_append, joinAll_singleton]
      · intro closed count front
        by_cases isBracket : c = ']'
        · subst isBracket
          have step := (outside 0 []).cons (front ++ [']'])
          have nothing : backslashes 0 = [] := rfl
          have ending : trailing (']' :: rest) = trailing rest :=
            trailing_append_cons (by decide) [] rest
          rw [ending]
          simpa [nothing, joinAll_cons, joinAll_nil, cutAtTags, escapeTags, shownPieces] using step
        · obtain ⟨noBracket, closedRest⟩ : c ≠ '[' ∧ closes rest = true := by
            simpa [closes, isBracket] using closed
          obtain ⟨next, goesOn⟩ :=
            exists_shownPieces_escapeTags_inside noBracket isBracket count rest
          have step := inside closedRest next (front ++ [c])
          have ending : trailing (c :: rest) = trailing rest :=
            trailing_append_of_closes closedRest [c]
          have cut : cutAtTags true (c :: rest) = join c (cutAtTags true rest) := by
            rw [cutAtTags, if_pos rfl, if_neg isBracket]
          simpa [ending, cut, goesOn, joinAll_append, joinAll_singleton] using step

/-- Escaping adds backslashes in front of tags only. -/
theorem trailing_append_escapeTags (count : Nat) (text : List Char) :
    trailing (backslashes count ++ escapeTags count text) =
      trailing (backslashes count ++ text) := by
  induction text generalizing count with
  | nil => rfl
  | cons c rest inductionHypothesis =>
      by_cases isBackslash : c = '\\'
      · have more : ∀ text, backslashes count ++ c :: text = backslashes (count + 1) ++ text := by
          intro text
          rw [isBackslash, backslashes, backslashes, List.replicate_succ', List.append_assoc,
            List.singleton_append]
        rw [escapeTags, if_pos isBackslash, more, more, inductionHypothesis]
      · have unescaped : trailing (escapeTags 0 rest) = trailing rest := inductionHypothesis 0
        rw [trailing_append_cons isBackslash, escapeTags, if_neg isBackslash]
        split
        · rw [← List.append_assoc, trailing_append_cons isBackslash, unescaped]
        · rw [trailing_append_cons isBackslash, unescaped]

/-- The number of backslashes at the end of a text when it is escaped: a single one is doubled. -/
def escapedTrailing (text : List Char) : Nat := if trailing text = 1 then 2 else trailing text

/-- What shows of a text that is escaped is told by its pieces, and by what its markup goes on
with. -/
theorem showsAs_escape (pictures : Pictures) (text : List Char) :
    ∃ pieces, pieces.flatten ++ backslashes (trailing text) = text ∧
      shownText pictures (cutAtTags false text) =
        shownText pictures pieces ++ backslashes (trailing text) ∧
      ∀ tail, IsContinuation tail →
        shownText pictures (shownPieces (.plain 0) (escape text ++ tail)) =
          shownText pictures pieces ++
            shownText pictures (shownPieces (.plain (escapedTrailing text)) tail) := by
  obtain ⟨pieces, whole, shown, goesOn⟩ :=
    (showsAs_escapeTags pictures text).1 0 []
  refine ⟨pieces, whole, shown, fun tail continues => ?_⟩
  have ending : trailing (escapeTags 0 text) = trailing text := trailing_append_escapeTags 0 text
  by_cases single : trailing text = 1
  · have escaped : escape text ++ tail = escapeTags 0 text ++ (backslashes 1 ++ tail) := by
      simp [escape, endsInOneBackslash_eq, ending, single, backslashes]
    have step : shownText pictures
        (shownPieces (.plain 0) (escapeTags 0 text ++ (backslashes 1 ++ tail))) =
          shownText pictures pieces ++
            shownText pictures (shownPieces (.plain (trailing text)) (backslashes 1 ++ tail)) :=
      goesOn _ (continues.backslashes 1)
    rw [escaped, step, shownPieces_backslashes_append, single, escapedTrailing, if_pos single]
  · have escaped : escape text ++ tail = escapeTags 0 text ++ tail := by
      simp [escape, endsInOneBackslash_eq, ending, single]
    rw [escaped, escapedTrailing, if_neg single]
    exact goesOn tail continues

/-- Nothing in a text is interpreted when it is part of a markup: in none of the pieces into which
it is cut at its tags. -/
def IsInert (pictures : Pictures) (text : List Char) : Prop :=
  ∀ piece ∈ cutAtTags false text, IsPlain pictures piece

instance (pictures : Pictures) (text : List Char) : Decidable (IsInert pictures text) :=
  inferInstanceAs (Decidable (∀ piece ∈ cutAtTags false text, IsPlain pictures piece))

theorem withoutBlanks_backslashes (count : Nat) :
    Text.withoutBlanks (backslashes count) = backslashes count :=
  List.filter_eq_self.2 fun c member => by
    rw [List.eq_of_mem_replicate member]
    decide

/-- An escaped text shows as it is, blanks apart, exactly if nothing in it is interpreted and the
backslashes at its end show in their number. -/
theorem withoutBlanks_escape_iff (gallery : IsGallery pictures) (text : List Char)
    {tail : List Char} (continues : IsContinuation tail) :
    Text.withoutBlanks
        (shownText pictures (shownPieces (.plain 0) (escape text ++ tail))) =
      Text.withoutBlanks text ↔
    IsInert pictures text ∧
      Text.withoutBlanks
          (shownText pictures (shownPieces (.plain (escapedTrailing text)) tail)) =
        backslashes (trailing text) := by
  obtain ⟨pieces, whole, shown, goesOn⟩ := showsAs_escape pictures text
  rw [goesOn tail continues]
  rcases shownText_eq_or_departs gallery (cutAtTags false text) with
    ⟨inert, same⟩ | ⟨interpreted, departs⟩
  · rw [flatten_cutAtTags, shown] at same
    have literal : Text.withoutBlanks text =
        Text.withoutBlanks (shownText pictures pieces) ++ backslashes (trailing text) := by
      rw [← withoutBlanks_backslashes, ← Text.withoutBlanks_append, same]
    rw [literal, Text.withoutBlanks_append, List.append_cancel_left_eq]
    exact (and_iff_right inert).symm
  · rw [flatten_cutAtTags, shown] at departs
    have differs := (departs.of_append_backslashes.append []
      (shownText pictures (shownPieces (.plain (escapedTrailing text)) tail))).withoutBlanks_ne
    rw [List.append_nil] at differs
    exact iff_of_false differs fun both => interpreted both.1

/-- An escaped text that is printable is legible if what its markup goes on with is. -/
theorem isLegible_escape (gallery : IsGallery pictures) {text tail : List Char}
    (printable : ∀ c ∈ text, Text.isPrintable c = true) (continues : IsContinuation tail)
    (legible : IsLegible
      (shownText pictures (shownPieces (.plain (escapedTrailing text)) tail))) :
    IsLegible (shownText pictures (shownPieces (.plain 0) (escape text ++ tail))) := by
  obtain ⟨pieces, whole, -, goesOn⟩ := showsAs_escape pictures text
  rw [goesOn tail continues]
  refine (isLegible_shownText gallery fun c member => printable c ?_).append legible
  rw [← whole]
  exact List.mem_append_left _ member

end Markup

end Roster.Terminal
