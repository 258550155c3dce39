import Roster.Proofs.Yaml.CroppedQuoted
import Roster.Proofs.Yaml.OpeningGrammar

/-!
# Entries whose lines are cut

How the stream opens at an entry of a sequence whose scalar is cut: with a scalar of
another text, with a mapping if the scalar is cut behind a colon, or with an error.
-/

namespace Roster.Yaml

open Roster.Text (Unbroken Cropped)

/-- A beginning of a plain text is one, if it cannot be taken for an indicator. -/
theorem IsPlain.beginsPlain_front {front lost : List Char} (isPlain : IsPlain (front ++ lost))
    (several : 1 < front.length) : BeginsPlain front where
  nonempty := List.ne_nil_of_length_pos (Nat.zero_lt_of_lt several)
  unbroken c member := isPlain.unbroken c (List.mem_append_left _ member)
  inside member := isPlain.inside (List.mem_append_left _ member)
  noMarker := by
    have noMarker := isPlain.noMarker
    simp only [Presentation.startsLikeMarker, Bool.or_eq_false_iff] at noMarker ⊢
    refine noMarker.imp ?_ ?_
    all_goals
      intro absent
      rw [Bool.eq_false_iff, Ne, List.isPrefixOf_iff_prefix] at absent ⊢
      exact fun begins => absent (begins.trans (List.prefix_append _ _))
  noOpening := by
    obtain ⟨c, others, rfl⟩ :=
      List.exists_cons_of_ne_nil (List.ne_nil_of_length_pos (Nat.zero_lt_of_lt several))
    exact isPlain.noOpening
  notLone := by
    obtain ⟨c, others, rfl⟩ :=
      List.exists_cons_of_ne_nil (List.ne_nil_of_length_pos (Nat.zero_lt_of_lt several))
    have further : others ≠ [] := List.ne_nil_of_length_pos (Nat.lt_of_succ_lt_succ several)
    simp [Presentation.isLoneIndicator, further]
  noMark member := isPlain.noMark (List.mem_append_left _ member)

namespace Scan

variable {scan : Scan} {keyAllowed : Bool} {column : Nat}

/-- A token that may be a key comes out if its chance is over behind it. -/
theorem Here.opens_behindContent {level : Nat} {outer : List Nat} {text : List Char}
    (here : scan.Here (level :: outer) keyAllowed column text) (deeper : level < column)
    (kind : TokenKind) (finish : Mark) {cursor : Cursor} (allowed : Bool)
    (passed : scan.cursor.mark.line < cursor.mark.line ∨
      scan.cursor.mark.index + 1024 < cursor.mark.index) (fuel : Nat) :
    Opens (run (fuel + 1) (scan.behindContent kind finish cursor allowed)).tokens
      (run (fuel + 1) (scan.behindContent kind finish cursor allowed)).failure
      (kinds scan.held ++ [kind]) := by
  rw [← kinds_behindContent scan kind finish cursor allowed]
  refine opens_held fuel here.noFlow fun candidate member => ?_
  have isOffered : candidate ∈ scan.offered := member
  refine ⟨?_, here.offered_free deeper candidate isOffered⟩
  unfold offered at isOffered
  split at isOffered
  · obtain rfl := Option.some.inj isOffered
    rw [isFresh, Bool.and_eq_false_iff]
    rcases passed with later | further
    · exact .inl (beq_eq_false_iff_ne.2 (Nat.ne_of_lt later))
    · exact .inr (decide_eq_false (by simp only [behindContent]; omega))
  · cases isOffered

/-- How the stream opens at a token is decided where the token is read. -/
theorem Arrives.opens {columns : List Nat} {text : List Char}
    (arrives : scan.Arrives columns keyAllowed column text)
    (inside : ∀ level ∈ columns.head?, level ≤ column) {property : TokenKind → Prop}
    (exists_kind : ∃ kind, property kind) {fuel : Nat}
    (reads : ∀ here : Scan, here.Here columns keyAllowed column text → ∀ next,
      here.fetchHere = .ok next → ∃ kind, property kind ∧
        Opens (run fuel next).tokens (run fuel next).failure (kinds here.held ++ [kind])) :
    ∃ kind, property kind ∧
      Opens (run (fuel + 1) scan).tokens (run (fuel + 1) scan).failure
        (kinds scan.held ++ [kind]) := by
  obtain ⟨here, ready, isHere, held, ran⟩ := arrives.run_eq inside
  rw [ran, ← held]
  cases fetched : here.fetchHere with
  | error error =>
      obtain ⟨kind, holds⟩ := exists_kind
      refine ⟨kind, holds, .inr ⟨rfl, ?_⟩⟩
      rw [readOn, List.append_assoc]
      exact List.prefix_append _ _
  | ok next =>
      obtain ⟨kind, holds, opens⟩ := reads here isHere next fetched
      refine ⟨kind, holds, ?_⟩
      rw [readOn, List.append_assoc]
      exact opens.append ready

/-- Code points that are broken or fewer are another text than an unbroken one. -/
theorem unlike_of_shorter {text : List Char} {codes : List Text.CodePoint}
    (unbroken : Unbroken text) (shorter : ¬Token.IsBroken codes → codes.length < text.length) :
    (TokenKind.scalar (.ofCodes codes)).Unlike (String.ofList text) := by
  refine .scalar fun same => ?_
  have found := congrArg Text.Wide.codes same
  rw [Text.Wide.codes_ofCodes, Text.Wide.codes, String.toList_ofList] at found
  rw [found, List.length_map] at shorter
  exact Nat.lt_irrefl _ (shorter (Token.not_isBroken unbroken))

/-- A shorter text is another one. -/
theorem unlike_of_length_lt {text other : List Char} (shorter : other.length < text.length) :
    (TokenKind.scalar (String.ofList other)).Unlike (String.ofList text) := by
  refine .scalar fun same => ?_
  rw [String.ofList_injective (Text.Wide.plain.inj same)] at shorter
  exact Nat.lt_irrefl _ shorter

/-- A quoted scalar whose text is spoiled is read as another text. -/
theorem Here.opens_spoiled {level : Nat} {outer : List Nat} {style : QuoteStyle}
    {text shown : List Char} (unbroken : Unbroken text) (deeper : level < column)
    (spoils : ∀ {since mark : Mark} {fuel : Nat}, shown.length < fuel →
      Gives (Token.quotedContent style since fuel ⟨mark, shown⟩) (Token.Spoils text mark.line))
    (here : scan.Here (level :: outer) keyAllowed column (style.mark :: shown)) {next : Scan}
    (fetched : scan.fetchHere = .ok next) (fuel : Nat) :
    ∃ kind, kind.Unlike (String.ofList text) ∧
      Opens (run (fuel + 1) next).tokens (run (fuel + 1) next).failure
        (kinds scan.held ++ [kind]) := by
  have isRead : scan.fetchHere = scan.fetchContent _ := fetchHere_quoted here.rest_eq
  cases read : Token.quotedScalar style scan.cursor with
  | error error =>
      rw [isRead, fetchContent, here.saveCandidate, read] at fetched
      cases fetched
  | ok found =>
      have whole := read
      rw [here.cursor_eq, Token.quotedScalar] at whole
      obtain ⟨⟨other, behind⟩, content, same⟩ := bind_eq_ok.1 whole
      obtain rfl := Except.ok.inj same
      obtain ⟨shorter, later⟩ := spoils (Nat.lt_add_right 1 (Nat.lt_succ_self _)) _ content
      have fetched' : scan.fetchHere = .ok (scan.behindContent (.scalar (.ofCodes other))
          behind.mark behind false) := by
        rw [isRead, fetchContent, here.saveCandidate, read]
        rfl
      obtain rfl := Except.ok.inj (fetched.symm.trans fetched')
      refine ⟨_, unlike_of_shorter unbroken shorter,
        here.opens_behindContent deeper _ _ _ (.inl ?_) fuel⟩
      exact Nat.lt_of_le_of_lt (scan.cursor.mark.line_le_after _) later

/-- In front of an entry's line, or of the end, a plain scalar ends. -/
theorem exists_of_isEntryLine {text : List Char} (isEntryLine : IsEntryLine text) :
    ∃ count rest, text = List.replicate count ' ' ++ rest ∧ count ≤ 2 ∧ IsSettled rest ∧
      ∀ mark, Cursor.atDocumentMarker ⟨mark, List.replicate count ' ' ++ rest⟩ = false := by
  rcases isEntryLine with rfl | ⟨tail, rfl⟩
  · exact ⟨0, [], rfl, Nat.zero_le _, isSettled_nil, fun _ => rfl⟩
  · exact ⟨2, '-' :: ' ' :: tail, rfl, Nat.le_refl _, isSettled_sign (by decide) _, fun _ => rfl⟩

variable {level : Nat} {outer : List Nat} {kept lost space rest : List Char}

/-- A plain text that is cut behind no colon is read as a shorter text. -/
theorem Arrives.opens_cutPlain (isPlain : IsPlain (kept ++ lost)) (isCut : lost ≠ [])
    (several : 1 < kept.length) (noColon : kept.getLast? ≠ some ':')
    (blank : space = [] ∨ space = [' ']) (isEntryLine : IsEntryLine rest)
    (shallow : 2 ≤ level) (deeper : level < column)
    (arrives : scan.Arrives (level :: outer) keyAllowed column (kept ++ (space ++ '\n' :: rest)))
    (fuel : Nat) :
    ∃ kind, kind.Unlike (String.ofList (kept ++ lost)) ∧
      Opens (run (fuel + 2) scan).tokens (run (fuel + 2) scan).failure
        (kinds scan.held ++ [kind]) := by
  obtain ⟨trailing, rfl⟩ : ∃ trailing, space = List.replicate trailing ' ' := by
    rcases blank with rfl | rfl
    · exact ⟨0, rfl⟩
    · exact ⟨1, rfl⟩
  obtain ⟨count, behind, rfl, few, settled, noMarker⟩ := exists_of_isEntryLine isEntryLine
  have isKept : IsPlain kept := { isPlain.beginsPlain_front several with noColon }
  have shorter : kept.length < (kept ++ lost).length := by
    have positive := List.length_pos_iff.2 isCut
    rw [List.length_append]
    omega
  refine arrives.opens (fun _ isHead => Option.some.inj isHead ▸ Nat.le_of_lt deeper)
    ⟨_, .mapping⟩ fun here isHere next fetched => ?_
  have isRead := isHere.fetchHere_line trailing isKept (Nat.le_trans few shallow) settled noMarker
  obtain rfl := Except.ok.inj (fetched.symm.trans isRead)
  exact ⟨_, unlike_of_length_lt shorter, isHere.opens_behindContent deeper _ _ _
    (.inl (Mark.line_lt_line_behind _ (by simp))) fuel⟩

/-- A plain text that is cut behind a colon is read as a key, or as a shorter text if it is too
long for a key. -/
theorem Arrives.opens_cutAtColon (isPlain : IsPlain (kept ++ ':' :: lost))
    (several : 1 < kept.length) (blank : space = [] ∨ space = [' ']) (deeper : level < column)
    (arrives : scan.Arrives (level :: outer) true column
      (kept ++ ':' :: (space ++ '\n' :: rest))) (fuel : Nat) :
    ∃ kind, kind.Unlike (String.ofList (kept ++ ':' :: lost)) ∧
      Opens (run (fuel + 3) scan).tokens (run (fuel + 3) scan).failure
        (kinds scan.held ++ [kind]) := by
  have begins := isPlain.beginsPlain_front several
  have setOff : endsIndicator ((space ++ '\n' :: rest).headD endOfText) = true := by
    rcases blank with rfl | rfl <;> rfl
  have inside : ∀ other ∈ (level :: outer).head?, other ≤ column :=
    fun _ isHead => Option.some.inj isHead ▸ Nat.le_of_lt deeper
  by_cases short : kept.length ≤ 1024
  · obtain ⟨next, leads, behind⟩ := Leads.key begins short setOff inside arrives
    have opens := opens_held fuel behind.noFlow (by simp [behind.noCandidate])
    rw [← List.append_nil (kinds next.held)] at opens
    have isKey : keyKinds (level :: outer) column kept =
        .blockMappingStart :: [.key, .scalar (String.ofList kept), .value] := by
      simp [keyKinds, deeper]
    have whole := leads.opens opens
    rw [List.append_nil, isKey, List.append_cons] at whole
    exact ⟨_, .mapping, whole.front⟩
  · have shorter : kept.length < (kept ++ ':' :: lost).length := by
      rw [List.length_append, List.length_cons]
      omega
    refine arrives.opens inside ⟨_, .mapping⟩ fun here isHere next fetched => ?_
    obtain rfl := Except.ok.inj (fetched.symm.trans (isHere.fetchHere_atColon begins setOff))
    refine ⟨_, unlike_of_length_lt shorter,
      isHere.opens_behindContent deeper _ _ _ (.inr ?_) (fuel + 1)⟩
    rw [Mark.index_behind]
    omega

end Scan

/-- The stream opens with a token unlike a text at an entry that shows a scalar. -/
def OpensUnlike (text shown : List Char) : Prop :=
  ∀ (fuel : Nat) (scan : Scan), scan.Arrives [2, 0] true 4 shown →
    ∃ kind, kind.Unlike (String.ofList text) ∧
      Opens (Scan.run (fuel + 3) scan).tokens (Scan.run (fuel + 3) scan).failure
        (kinds scan.held ++ [kind])

/-- A scalar behind the dash of an entry, with what follows its line, is kept whole. -/
def KeepsScalar (form rest shown : List Char) : Prop :=
  ∃ behind, shown = form ++ '\n' :: behind ∧ Cropped 0 rest behind

/-- A plain scalar that is cut is read as something else. -/
theorem cropped_plain_cases {text rest shown : List Char} (isPlain : IsPlain text)
    (isEntryLine : IsEntryLine rest) (cropped : Cropped 4 (text ++ '\n' :: rest) shown) :
    KeepsScalar text rest shown ∨ OpensUnlike text shown := by
  have noNewline : '\n' ∉ text := fun member => by cases isPlain.unbroken _ member
  rcases cropped.line_cases noNewline with kept | ⟨kept, lost, rfl, cutAfter⟩
  · exact .inl kept
  · obtain ⟨space, behind, blank, rfl, nextLine⟩ := cutAfter.left
    have several : 2 < kept.length := by
      have enough := cutAfter.enough
      rw [Text.safeColumns] at enough
      omega
    refine .inr fun fuel scan arrives => ?_
    by_cases noColon : kept.getLast? ≠ some ':'
    · exact arrives.opens_cutPlain isPlain cutAfter.isCut (by omega) noColon blank
        (isEntryLine.cropped nextLine) (Nat.le_refl _) (by decide) (fuel + 1)
    · obtain ⟨word, rfl⟩ := List.getLast?_eq_some_iff.1 (not_not.1 noColon)
      rw [List.length_append, List.length_singleton] at several
      simp only [List.append_assoc, List.singleton_append] at isPlain arrives ⊢
      exact arrives.opens_cutAtColon isPlain (by omega) blank (by decide) fuel

/-- A quoted scalar that is cut is read as something else, if its content is. -/
theorem cropped_quoted_cases (style : QuoteStyle) {content text rest shown : List Char}
    (unbroken : Unbroken text)
    (cases_content : ∀ {inner : List Char},
      Cropped 5 (content ++ style.mark :: '\n' :: rest) inner →
      ∀ {since mark : Mark} {fuel : Nat}, inner.length < fuel →
        (∃ behind, inner = content ++ style.mark :: '\n' :: behind ∧ Cropped 0 rest behind) ∨
          Gives (Token.quotedContent style since fuel ⟨mark, inner⟩)
            (Token.Spoils text mark.line))
    (cropped : Cropped 4 (style.mark :: content ++ [style.mark] ++ '\n' :: rest) shown) :
    KeepsScalar (style.mark :: content ++ [style.mark]) rest shown ∨ OpensUnlike text shown := by
  have noNewline : '\n' ∉ [style.mark] := by cases style <;> decide
  rw [List.append_assoc, List.cons_append, List.singleton_append] at cropped
  obtain ⟨inner, rfl, onward⟩ :=
    cropped.exists_front noNewline (show 4 + 1 ≤ Text.safeColumns by decide)
  by_cases kept : ∃ behind, inner = content ++ style.mark :: '\n' :: behind ∧ Cropped 0 rest behind
  · obtain ⟨behind, rfl, nextLine⟩ := kept
    exact .inl ⟨behind, by simp, nextLine⟩
  · refine .inr fun fuel scan arrives => ?_
    refine arrives.opens (by simp) ⟨_, .mapping⟩ fun here isHere next fetched => ?_
    exact isHere.opens_spoiled unbroken (by decide)
      (fun enough => (cases_content onward enough).resolve_left kept) fetched (fuel + 1)

/-- The scalar of an entry is kept whole, or the stream opens there with a token unlike its
text. -/
theorem cropped_entry_cases (place : Nat) {text rest shown : List Char} (nonempty : text ≠ [])
    (unbroken : Unbroken text) (isEntryLine : IsEntryLine rest)
    (cropped : Cropped 4 (Presentation.scalar place text ++ '\n' :: rest) shown) :
    KeepsScalar (Presentation.scalar place text) rest shown ∨ OpensUnlike text shown := by
  rcases Presentation.scalar_cases place text with
    ⟨allowed, -, form⟩ | ⟨noEscape, noQuote, form⟩ | form
  · rw [form] at cropped ⊢
    exact cropped_plain_cases (isPlain_of_allowsPlain nonempty unbroken allowed) isEntryLine cropped
  · have noEnd : endOfText ∉ text := fun member => by cases noEscape endOfText member
    rw [form] at cropped ⊢
    exact cropped_quoted_cases .single unbroken
      (fun inner => Token.gives_spoils_single unbroken noEnd noQuote inner) cropped
  · have isContent := Token.doubleQuoted_doubleQuotedContent true (place + 1) 0 text
    rw [form] at cropped ⊢
    exact cropped_quoted_cases .double unbroken
      (fun inner => Token.gives_spoils_double isContent unbroken isEntryLine inner) cropped

end Roster.Yaml
