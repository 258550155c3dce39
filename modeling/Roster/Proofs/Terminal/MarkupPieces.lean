import Roster.Proofs.Terminal.EmojiCodes

/-!
# The pieces of a markup

A markup shows piece by piece: the texts between its tags, and the tags that are escaped. What
comes in front of a foreign text in a markup, tags that set a style and plain text, shows as it
is meant and leaves the foreign text alone.
-/

namespace Roster.Terminal

namespace Markup

open Emoji (Pictures IsGallery IsPlain)

variable {pictures : Pictures}

theorem unescapeBrackets_cons {c : Char} {rest : List Char}
    (noEscape : ¬ ['\\', '['] <+: c :: rest) :
    unescapeBrackets (c :: rest) = c :: unescapeBrackets rest := by
  rw [unescapeBrackets]
  rintro others rfl rfl
  exact noEscape ⟨others, rfl⟩

/-- Backslashes at the end stand in front of no bracket. -/
theorem unescapeBrackets_append_backslashes (text : List Char) (count : Nat) :
    unescapeBrackets (text ++ backslashes count) = unescapeBrackets text ++ backslashes count := by
  fun_induction unescapeBrackets text with
  | case1 =>
      induction count with
      | zero => rfl
      | succ less inductionHypothesis =>
          rw [List.nil_append, backslashes, List.replicate_succ, unescapeBrackets_cons]
          · exact congrArg _ inductionHypothesis
          · cases less <;> simp [List.replicate_succ]
  | case2 rest inductionHypothesis =>
      rw [List.cons_append, List.cons_append, unescapeBrackets, inductionHypothesis,
        List.cons_append]
  | case3 c rest noEscape inductionHypothesis =>
      rw [List.cons_append, unescapeBrackets_cons, inductionHypothesis, List.cons_append]
      rintro ⟨others, same⟩
      obtain ⟨rfl, bracket⟩ := List.cons.inj same
      cases rest with
      | nil => cases count <;> cases bracket
      | cons d more =>
          obtain ⟨rfl, -⟩ := List.cons.inj bracket
          exact noEscape more rfl rfl

/-- What shows of a piece of a markup. -/
def shownPiece (pictures : Pictures) (piece : List Char) : List Char :=
  Emoji.expand pictures (unescapeBrackets piece)

/-- What shows of pieces of a markup. -/
def shownText (pictures : Pictures) (pieces : List (List Char)) : List Char :=
  pieces.flatMap (shownPiece pictures)

theorem shownPiece_append_backslashes (piece : List Char) (count : Nat) :
    shownPiece pictures (piece ++ backslashes count) =
      shownPiece pictures piece ++ backslashes count := by
  have noColon : ':' ∉ backslashes count := by
    rw [backslashes, List.mem_replicate]
    exact fun isBackslash => absurd isBackslash.2 (by decide)
  rw [shownPiece, unescapeBrackets_append_backslashes, Emoji.expand,
    Emoji.expandBehind_append noColon]
  rfl

theorem shownPiece_backslashes (count : Nat) :
    shownPiece pictures (backslashes count) = backslashes count :=
  shownPiece_append_backslashes [] count

/-- Pieces show as they are exactly if nothing in them is interpreted. Otherwise they show
differently from some place on. -/
theorem shownText_eq_or_departs (gallery : IsGallery pictures) (pieces : List (List Char)) :
    ((∀ piece ∈ pieces, IsPlain pictures piece) ∧ shownText pictures pieces = pieces.flatten) ∨
      (¬ (∀ piece ∈ pieces, IsPlain pictures piece) ∧
        Departs pieces.flatten (shownText pictures pieces)) := by
  induction pieces with
  | nil => exact .inl ⟨List.forall_mem_nil _, rfl⟩
  | cons piece others inductionHypothesis =>
      rw [shownText, List.flatMap_cons, List.flatten_cons, List.forall_mem_cons]
      rcases Emoji.expandBehind_unescapeBrackets gallery none piece with
        ⟨plain, same⟩ | ⟨interpreted, departs⟩
      · rw [shownPiece, Emoji.expand, same, Emoji.pending, List.nil_append]
        refine inductionHypothesis.imp ?_ ?_
        · rintro ⟨plainOthers, sameOthers⟩
          exact ⟨⟨plain, plainOthers⟩, congrArg _ sameOthers⟩
        · rintro ⟨interpreted, departs⟩
          exact ⟨fun all => interpreted all.2, departs.append_left piece⟩
      · exact .inr ⟨fun all => interpreted all.1, departs.append _ _⟩

theorem mem_of_mem_unescapeBrackets {text : List Char} {c : Char}
    (member : c ∈ unescapeBrackets text) : c ∈ text := by
  fun_induction unescapeBrackets text with
  | case1 => exact member
  | case2 rest inductionHypothesis => 
      rcases List.mem_cons.1 member with rfl | inside
      · simp
      · simp [inductionHypothesis inside]
  | case3 d rest noEscape inductionHypothesis =>
      rcases List.mem_cons.1 member with rfl | inside
      · simp
      · simp [inductionHypothesis inside]

/-- Printable pieces are legible when they are shown. -/
theorem isLegible_shownText (gallery : IsGallery pictures) {pieces : List (List Char)}
    (printable : ∀ c ∈ pieces.flatten, Text.isPrintable c = true) :
    IsLegible (shownText pictures pieces) :=
  IsLegible.flatMap fun piece isPiece =>
    Emoji.isLegible_expandBehind gallery fun c member => printable c
      (List.mem_flatten.2 ⟨piece, isPiece, mem_of_mem_unescapeBrackets member⟩)

theorem joinAll_append (front behind : List Char) (pieces : List (List Char)) :
    joinAll (front ++ behind) pieces = joinAll front (joinAll behind pieces) :=
  List.foldr_append ..

theorem joinAll_cons (text piece : List Char) (others : List (List Char)) :
    joinAll text (piece :: others) = (text ++ piece) :: others := by
  induction text with
  | nil => rfl
  | cons c rest inductionHypothesis => exact congrArg (join c) inductionHypothesis

theorem joinAll_nil (pieces : List (List Char)) : joinAll [] pieces = pieces := rfl

theorem joinAll_singleton (c : Char) (pieces : List (List Char)) :
    joinAll [c] pieces = join c pieces := rfl

theorem shownPieces_backslashes_append (count more : Nat) (text : List Char) :
    shownPieces (.plain count) (backslashes more ++ text) =
      shownPieces (.plain (count + more)) text := by
  induction more generalizing count with
  | zero => rfl
  | succ less inductionHypothesis =>
      rw [backslashes, List.replicate_succ, List.cons_append, shownPieces, if_pos rfl,
        ← backslashes, inductionHypothesis, Nat.add_right_comm, Nat.add_assoc]

/-- A markup without brackets is one piece. -/
theorem shownPieces_of_not_mem {text : List Char} (absent : '[' ∉ text) (count : Nat) :
    shownPieces (.plain count) text = [backslashes count ++ text] := by
  induction text generalizing count with
  | nil => simp [shownPieces]
  | cons c rest inductionHypothesis =>
      rw [List.mem_cons, not_or] at absent
      rw [shownPieces]
      split
      · rename_i isBackslash
        rw [inductionHypothesis absent.2, backslashes, List.replicate_succ', isBackslash,
          List.append_assoc, List.singleton_append]
        rfl
      · rw [if_neg (by simp [Ne.symm absent.1]), inductionHypothesis absent.2]
        simp [join, joinAll_cons, backslashes]

theorem unescapeBrackets_of_not_mem {text : List Char} (absent : '[' ∉ text) :
    unescapeBrackets text = text := by
  induction text with
  | nil => rfl
  | cons c rest inductionHypothesis =>
      rw [List.mem_cons, not_or] at absent
      rw [unescapeBrackets_cons, inductionHypothesis absent.2]
      rintro ⟨others, same⟩
      obtain ⟨-, rfl⟩ := List.cons.inj same
      exact absent.2 (by simp)

/-- A piece without colons and brackets shows as it is. -/
theorem shownPiece_eq_self {piece : List Char} (noColon : ':' ∉ piece) (noBracket : '[' ∉ piece) :
    shownPiece pictures piece = piece := by
  rw [shownPiece, unescapeBrackets_of_not_mem noBracket, Emoji.expand_of_not_mem _ noColon]

/-- Rendering shows the pieces of a markup, also if it holds no bracket. -/
theorem render_eq_shownText (markup : List Char) :
    render pictures markup = shownText pictures (shownPieces (.plain 0) markup) := by
  rw [render]
  split
  · rfl
  · rename_i noBracket
    have absent : '[' ∉ markup := by simpa using noBracket
    have whole : backslashes 0 ++ markup = markup := rfl
    simp [shownPieces_of_not_mem absent, whole, shownText, shownPiece,
      unescapeBrackets_of_not_mem absent]

/-- Plain text in a markup shows in front of what follows it. -/
theorem shownPieces_append_plain {front : List Char} (noBracket : '[' ∉ front)
    (noBackslash : '\\' ∉ front) (text : List Char) :
    shownPieces (.plain 0) (front ++ text) = joinAll front (shownPieces (.plain 0) text) := by
  induction front with
  | nil => rfl
  | cons c rest inductionHypothesis =>
      rw [List.mem_cons, not_or] at noBracket noBackslash
      rw [List.cons_append, shownPieces, if_neg (Ne.symm noBackslash.1),
        if_neg (by simp [Ne.symm noBracket.1]), inductionHypothesis noBracket.2 noBackslash.2]
      rfl

/-- A tag that sets a style does not show. -/
theorem shownPieces_style {tag : List Char} (begins : tag.head?.any beginsTag = true)
    (noOpening : '[' ∉ tag) (noClosing : ']' ∉ tag) (text : List Char) :
    shownPieces (.plain 0) ('[' :: (tag ++ ']' :: text)) =
      [] :: [] :: shownPieces (.plain 0) text := by
  have closed : ∀ others : List Char, '[' ∉ others → ']' ∉ others →
      closes (others ++ ']' :: text) = true ∧
        shownPieces .styleTag (others ++ ']' :: text) = shownPieces (.plain 0) text := by
    intro others noOpening noClosing
    induction others with
    | nil => exact ⟨rfl, rfl⟩
    | cons c rest inductionHypothesis =>
        rw [List.mem_cons, not_or] at noOpening noClosing
        obtain ⟨closes_rest, shown⟩ := inductionHypothesis noOpening.2 noClosing.2
        simp [closes, shownPieces, Ne.symm noOpening.1, Ne.symm noClosing.1, closes_rest, shown]
  cases tag with
  | nil => cases begins
  | cons c rest =>
      have isTag : isTag (c :: (rest ++ ']' :: text)) = true := by
        have begins : beginsTag c = true := begins
        rw [List.mem_cons, not_or] at noOpening noClosing
        simp [Markup.isTag, begins, (closed rest noOpening.2 noClosing.2).1]
      rw [List.cons_append, shownPieces, if_neg (by decide), if_pos (by simpa using isTag)]
      exact congrArg _ (congrArg _ (closed (c :: rest) noOpening noClosing).2)

theorem shownText_join {c : Char} (noColon : c ≠ ':') (noBackslash : c ≠ '\\')
    (pieces : List (List Char)) :
    shownText pictures (join c pieces) = c :: shownText pictures pieces := by
  have step : ∀ piece, shownPiece pictures (c :: piece) = c :: shownPiece pictures piece := by
    intro piece
    have noEscape : ¬ ['\\', '['] <+: c :: piece := fun escape =>
      noBackslash (List.cons_prefix_cons.1 escape).1.symm
    rw [shownPiece, unescapeBrackets_cons noEscape, Emoji.expand, Emoji.expandBehind,
      if_neg noColon]
    rfl
  cases pieces with
  | nil => exact congrArg (· ++ []) (step [])
  | cons piece others => exact congrArg (· ++ shownText pictures others) (step piece)

/-- Text without colons and backslashes shows as it is. -/
theorem shownText_joinAll {front : List Char} (noColon : ':' ∉ front)
    (noBackslash : '\\' ∉ front) (pieces : List (List Char)) :
    shownText pictures (joinAll front pieces) = front ++ shownText pictures pieces := by
  induction front with
  | nil => rfl
  | cons c rest inductionHypothesis =>
      rw [List.mem_cons, not_or] at noColon noBackslash
      exact (shownText_join (Ne.symm noColon.1) (Ne.symm noBackslash.1) _).trans
        (congrArg (List.cons c) (inductionHypothesis noColon.2 noBackslash.2))

/-- A colon in front of a space opens no code. -/
theorem shownText_join_colon (pieces : List (List Char)) :
    shownText pictures (join ':' (join ' ' pieces)) = ':' :: ' ' :: shownText pictures pieces := by
  cases pieces <;> rfl

end Markup

end Roster.Terminal
