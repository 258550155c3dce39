import Mathlib.Data.List.Forall2
import Mathlib.Data.List.TakeWhile
import Roster.Proofs.Yaml.Arrival
import Roster.Proofs.Yaml.Plain
import Roster.Proofs.Yaml.Quoted

/-!
# The token stream of block collections

What the stream gives for the entries of a block sequence, for scalars on a line of
their own, for plain keys, and for the end of the text. Each rule takes a state to
the next one that is about to read a token; put one after another they give the
tokens of a whole document.
-/

namespace Roster.Yaml

open Roster.Text (Unbroken)

/-- A form in which a text may be written as a value in block context. -/
inductive Written : List Char → List Char → Prop where
  | plain {text : List Char} (isPlain : IsPlain text) : Written text text
  | quoted (style : QuoteStyle) {content text : List Char}
      (reads : ∀ (mark : Mark) (rest : List Char), rest.head? ≠ some '\'' →
        Token.quotedScalar style ⟨mark, style.mark :: content ++ rest⟩ =
          .ok (String.ofList text, ⟨mark.behind (style.mark :: content), rest⟩)) :
      Written (style.mark :: content) text

/-- White space is skipped in front of no written form. -/
theorem Written.isSettled {written text : List Char} (isWritten : Written written text)
    (rest : List Char) : IsSettled (written ++ rest) := by
  cases isWritten with
  | @plain _ isPlain =>
      obtain ⟨c, others, rfl⟩ := List.exists_cons_of_ne_nil isPlain.nonempty
      have visible := isPlain.unbroken.head
      exact isSettled_cons (Text.ne_of_blank visible _ rfl) (Text.ne_of_blank visible _ rfl)
        (fun same => isPlain.noComment (by simp [same])) (isBreak_of_visible visible)
        (fun same => isPlain.noMark (by simp [same]))
  | @quoted style content text reads =>
      cases style with
      | single => exact isSettled_sign (by decide) _
      | double => exact isSettled_sign (by decide) _

namespace Scan

variable {scan : Scan} {columns : List Nat} {keyAllowed : Bool} {column : Nat}

/-- The character in front is the first one of the text that is read. -/
theorem Here.cursor_eq {text : List Char} (here : scan.Here columns keyAllowed column text) :
    scan.cursor = ⟨scan.cursor.mark, text⟩ := by
  rw [← here.rest_eq]

/-- A dash in front of a space is the indicator of an entry. -/
theorem Here.fetchHere_entry {text : List Char}
    (here : scan.Here columns keyAllowed column ('-' :: ' ' :: text)) :
    scan.fetchHere = scan.fetchBlockEntry := by
  have dash : scan.cursor.peek = '-' := by rw [here.cursor_eq]; rfl
  have space : scan.cursor.peekAt 1 = ' ' := by rw [here.cursor_eq]; rfl
  have first : scan.cursor.peekAt 0 = '-' := by rw [here.cursor_eq]; rfl
  have inside : scan.cursor.rest.isEmpty = false := by rw [here.rest_eq]; rfl
  have setOff : endsIndicator ' ' = true := rfl
  simp [fetchHere, dash, Cursor.atMarker, first, space, inside, setOff]

/-- What begins like a plain text is read as a plain scalar. -/
theorem Here.fetchHere_plain {text rest : List Char} {next : Char} (begins : BeginsPlain text)
    (here : scan.Here columns keyAllowed column (text ++ next :: rest)) (noDash : next ≠ '-')
    (noPoint : next ≠ '.') : scan.fetchHere = scan.fetchPlain := by
  have noMarker := begins.not_atMarker scan.cursor.mark noDash noPoint rest
  rw [← here.cursor_eq] at noMarker
  obtain ⟨c, others, rfl⟩ := List.exists_cons_of_ne_nil begins.nonempty
  have peek : scan.cursor.peek = c := by rw [here.cursor_eq]; rfl
  have second : scan.cursor.peekAt 1 = others.headD next := by
    rw [here.cursor_eq]
    cases others <;> rfl
  have inside : scan.cursor.rest.isEmpty = false := by rw [here.rest_eq]; rfl
  have beginsPlain := begins.begins scan.version next
  rw [← second] at beginsPlain
  have noOpening := begins.noOpening c rfl
  rw [Bool.eq_false_iff, Ne, isOpeningIndicator_iff] at noOpening
  -- An indicator that begins the text is not set off, so it begins no other token.
  have noIndicator : ∀ indicator ∈ ['-', '?', ':'],
      (c == indicator && endsIndicator (scan.cursor.peekAt 1)) = false := by
    intro indicator member
    by_cases same : c = indicator
    · rw [second, begins.not_setOff (same ▸ member) next, Bool.and_false]
    · simp [same]
  have noEntry := noIndicator '-' (by decide)
  have noKey : (c == '?' && scan.atKey) = false := by
    rw [atKey, inFlow, here.noFlow]
    exact noIndicator '?' (by decide)
  have noValue : (c == ':' && scan.atValue) = false := by
    rw [atValue, here.noFlow]
    exact noIndicator ':' (by decide)
  have inBlock : scan.inFlow = false := by simp [inFlow, here.noFlow]
  simp at noOpening
  simp [fetchHere, peek, noMarker, inside, noEntry, noKey, noValue, noOpening, inBlock, beginsPlain]

/-- A quotation mark begins a quoted scalar. -/
theorem fetchHere_quoted {style : QuoteStyle} {rest : List Char}
    (rest_eq : scan.cursor.rest = style.mark :: rest) :
    scan.fetchHere = scan.fetchQuoted style := by
  have noMarker : ∀ sign ∈ ['-', '.'], scan.cursor.atMarker sign = false := by
    intro sign member
    refine Cursor.atMarker_of_rest rest_eq ?_
    rintro rfl
    cases style <;> simp [QuoteStyle.mark] at member
  have peek := Cursor.peek_of_rest rest_eq
  cases style <;> simp [fetchHere, rest_eq, peek, noMarker, QuoteStyle.mark]

/-- A candidate that need not become a key is given up. -/
theorem dropCandidate_of_free (free : ∀ candidate ∈ scan.candidate, candidate.required = false) :
    scan.dropCandidate = .ok { scan with candidate := none } := by
  unfold dropCandidate
  split
  · rename_i candidate isCandidate
    rw [free candidate isCandidate]
    rfl
  · rename_i isCandidate
    rw [← isCandidate]

/-- The candidate that a token at the present place makes. -/
def offered (scan : Scan) : Option Candidate :=
  if scan.keyAllowed then
    some ⟨scan.count, scan.columns.head? == some scan.cursor.column, scan.cursor.mark⟩
  else none

/-- The state behind a token that may be a key. -/
def behindContent (scan : Scan) (kind : TokenKind) (finish : Mark) (cursor : Cursor)
    (keyAllowed : Bool) : Scan :=
  { scan.push kind scan.cursor.mark finish with candidate := scan.offered, cursor, keyAllowed }

theorem kinds_behindContent (scan : Scan) (kind : TokenKind) (finish : Mark) (cursor : Cursor)
    (keyAllowed : Bool) :
    kinds (scan.behindContent kind finish cursor keyAllowed).held = kinds scan.held ++ [kind] := by
  simp [behindContent, push, kinds]

theorem Here.saveCandidate {text : List Char}
    (here : scan.Here columns keyAllowed column text) :
    scan.saveCandidate = .ok { scan with candidate := scan.offered } := by
  by_cases allowed : scan.keyAllowed = true
  · simp [Scan.saveCandidate, offered, allowed, dropCandidate, here.noCandidate, inFlow,
      here.noFlow, bind, Except.bind, pure, Except.pure]
  · rw [Scan.saveCandidate, offered, if_neg allowed, if_neg allowed, ← here.noCandidate]

/-- A token inside the innermost collection need not become a key. -/
theorem Here.offered_free {level : Nat} {outer : List Nat} {text : List Char}
    (here : scan.Here (level :: outer) keyAllowed column text) (deeper : level < column) :
    ∀ candidate ∈ scan.offered, candidate.required = false := by
  intro candidate member
  unfold offered at member
  split at member
  · obtain rfl := Option.some.inj member
    simp [here.columns_eq, here.column_eq, Nat.ne_of_lt deeper]
  · cases member

/-- A token in a line of its own inside the innermost collection cannot become a
key: it need not, and the next line ends its chance. -/
theorem Here.arrives_behindContent {level : Nat} {outer : List Nat} {text rest white : List Char}
    {kind : TokenKind} {finish : Mark} {cursor : Cursor} {allowed : Bool} {count : Nat}
    (here : scan.Here (level :: outer) keyAllowed column text) (deeper : level < column)
    (settled : IsSettled rest) (isWhite : ∀ c ∈ white, c = ' ' ∨ c = '\n')
    (rest_eq : cursor.rest = white ++ rest) (column_eq : (cursor.mark.behind white).column = count)
    (allowed_eq : (allowed || white.contains '\n') = true)
    (further : scan.cursor.mark.line < (cursor.mark.behind white).line) :
    (scan.behindContent kind finish cursor allowed).Arrives (level :: outer) true count rest := by
  refine ⟨here.columns_eq, here.noFlow, here.unfinished, settled, white, isWhite, rest_eq,
    column_eq, allowed_eq, fun candidate member => ⟨here.offered_free deeper candidate member, ?_⟩⟩
  have isOffered : candidate ∈ scan.offered := member
  unfold offered at isOffered
  split at isOffered
  · obtain rfl := Option.some.inj isOffered
    exact Nat.ne_of_lt further
  · cases isOffered

/-- A plain text at the end of a line is read together with the white space up to the next
one. -/
theorem Here.fetchHere_line {level : Nat} {outer : List Nat} {text rest : List Char}
    (trailing : Nat) {count : Nat} (isPlain : IsPlain text) (shallow : count ≤ level)
    (settled : IsSettled rest)
    (noMarker : ∀ mark, Cursor.atDocumentMarker ⟨mark, List.replicate count ' ' ++ rest⟩ = false)
    (here : scan.Here (level :: outer) keyAllowed column
      (text ++ (List.replicate trailing ' ' ++ '\n' :: (List.replicate count ' ' ++ rest)))) :
    scan.fetchHere = .ok (scan.behindContent (.scalar (String.ofList text))
      (scan.cursor.mark.behind text)
      ⟨scan.cursor.mark.behind
        (text ++ List.replicate trailing ' ' ++ '\n' :: List.replicate count ' '), rest⟩ true) := by
  have inBlock : scan.inFlow = false := by simp [inFlow, here.noFlow]
  have shallow' : count < scan.least := by
    rw [least, here.columns_eq]
    exact Nat.lt_succ_of_le shallow
  have settled' : ∀ c ∈ rest.head?, c ≠ ' ' ∧ isBreak c = false := fun c isHead =>
    ⟨fun same => settled.noSpace (same ▸ isHead), settled.noBreak c isHead⟩
  have read := Token.plainScalar_line
    { version := scan.version, inFlow := scan.inFlow, least := scan.least }
    inBlock trailing shallow' scan.cursor.mark isPlain.nonempty isPlain.noComment
    (by rw [inBlock]; exact isPlain.continues scan.version) settled' noMarker
  rw [← here.cursor_eq] at read
  obtain ⟨c, others, same, isWhite⟩ : ∃ c others, List.replicate trailing ' ' ++
      '\n' :: (List.replicate count ' ' ++ rest) = c :: others ∧ (c = ' ' ∨ c = '\n') := by
    cases trailing with
    | zero => exact ⟨_, _, rfl, .inr rfl⟩
    | succ less => exact ⟨_, _, rfl, .inl rfl⟩
  have begins := here
  rw [same] at begins
  have isRead : scan.fetchHere = scan.fetchPlain := by
    rcases isWhite with rfl | rfl
    · exact begins.fetchHere_plain isPlain.beginsPlain (by decide) (by decide)
    · exact begins.fetchHere_plain isPlain.beginsPlain (by decide) (by decide)
  rw [isRead, fetchPlain, here.saveCandidate]
  simp only [read]
  rfl

/-- A plain text on a line of its own is read as a scalar, together with the
indentation of the next line. -/
theorem Here.plain {level : Nat} {outer : List Nat} {text rest : List Char} {count : Nat}
    (isPlain : IsPlain text) (deeper : level < column) (shallow : count ≤ level)
    (settled : IsSettled rest)
    (noMarker : ∀ mark, Cursor.atDocumentMarker ⟨mark, List.replicate count ' ' ++ rest⟩ = false)
    (here : scan.Here (level :: outer) keyAllowed column
      (text ++ '\n' :: (List.replicate count ' ' ++ rest))) :
    ∃ next, scan.fetchHere = .ok next ∧
      kinds next.held = kinds scan.held ++ [.scalar (String.ofList text)] ∧
      next.Arrives (level :: outer) true count rest :=
  ⟨_, Here.fetchHere_line 0 isPlain shallow settled noMarker here,
    kinds_behindContent .., here.arrives_behindContent deeper settled
      (List.forall_mem_nil _) rfl (Mark.column_behind_newline ..) rfl
      (Mark.line_lt_line_behind _ (by simp))⟩

/-- A quoted text on a line of its own is read as a scalar. -/
theorem Here.quoted {level : Nat} {outer : List Nat} {style : QuoteStyle}
    {content text rest : List Char} {count : Nat} (deeper : level < column)
    (settled : IsSettled rest)
    (reads : ∀ (mark : Mark) (rest : List Char), rest.head? ≠ some '\'' →
      Token.quotedScalar style ⟨mark, style.mark :: content ++ rest⟩ =
        .ok (String.ofList text, ⟨mark.behind (style.mark :: content), rest⟩))
    (here : scan.Here (level :: outer) keyAllowed column
      (style.mark :: content ++ '\n' :: (List.replicate count ' ' ++ rest))) :
    ∃ next, scan.fetchHere = .ok next ∧
      kinds next.held = kinds scan.held ++ [.scalar (String.ofList text)] ∧
      next.Arrives (level :: outer) true count rest := by
  have read := reads scan.cursor.mark ('\n' :: (List.replicate count ' ' ++ rest)) (by simp)
  rw [← here.cursor_eq] at read
  have behind : (scan.cursor.mark.behind (style.mark :: content)).behind
      ('\n' :: List.replicate count ' ') =
        scan.cursor.mark.behind (style.mark :: content ++ '\n' :: List.replicate count ' ') :=
    (Mark.behind_append ..).symm
  have fetched : scan.fetchHere = .ok (scan.behindContent (.scalar (String.ofList text))
      (scan.cursor.mark.behind (style.mark :: content))
      ⟨scan.cursor.mark.behind (style.mark :: content),
        '\n' :: (List.replicate count ' ' ++ rest)⟩ false) := by
    rw [fetchHere_quoted here.rest_eq, fetchQuoted, fetchContent, here.saveCandidate, read]
    rfl
  refine ⟨_, fetched, kinds_behindContent .., here.arrives_behindContent deeper settled
    (isWhite_newline count) rfl ?_ (by simp) ?_⟩
  · rw [behind]
    exact Mark.column_behind_newline ..
  · rw [behind]
    exact Mark.line_lt_line_behind _ (by simp)

/-- The dash of an entry may open a sequence. Behind it a key may begin. -/
theorem Here.entry {text : List Char} (here : scan.Here columns true column ('-' :: ' ' :: text))
    (settled : IsSettled text) :
    ∃ next, scan.fetchHere = .ok next ∧
      kinds next.held = kinds (scan.openBlock column .blockSequenceStart).held ++ [.blockEntry] ∧
      next.Arrives (scan.openBlock column .blockSequenceStart).columns true (column + 2) text := by
  have inBlock : scan.inFlow = false := by simp [inFlow, here.noFlow]
  let opened := scan.openBlock column .blockSequenceStart
  have opened_eq : opened = { scan with columns := opened.columns, held := opened.held } := by
    simp only [opened, openBlock, push]
    split <;> rfl
  have fetched : scan.fetchHere =
      .ok (({ opened with keyAllowed := true } : Scan).pushIndicator .blockEntry 1) := by
    rw [here.fetchHere_entry, fetchBlockEntry, fetchBlockIndicator]
    simp only [inBlock, here.keyAllowed_eq, here.column_eq, Bool.not_false, Bool.not_true,
      Bool.and_false, Bool.false_eq_true, if_false, dropCandidate]
    rw [show scan.openBlock column .blockSequenceStart = opened from rfl, opened_eq]
    simp [here.noCandidate, bind, Except.bind, pure, Except.pure]
  refine ⟨_, fetched, ?_, ?_⟩
  · simp [pushIndicator, push, kinds, opened]
  · rw [opened_eq]
    have behind : scan.cursor.skip 1 = ⟨scan.cursor.mark.after '-', ' ' :: text⟩ := by
      rw [here.cursor_eq]
      rfl
    refine ⟨rfl, here.noFlow, here.unfinished, settled, [' '], by simp, ?_, ?_, rfl, ?_⟩
    · simp [pushIndicator, behind]
    · simp [pushIndicator, behind, Mark.after, ← here.column_eq, Cursor.column]
    · intro candidate member
      rw [pushIndicator, push] at member
      simp [here.noCandidate] at member

/-- A dash at the column of the innermost sequence gives an entry of it. -/
theorem Emits.entry {fuel : Nat} {outer : List Nat} {text : List Char} {more : List TokenKind}
    (settled : IsSettled text)
    (arrives : scan.Arrives (column :: outer) true column ('-' :: ' ' :: text))
    (onward : ∀ next : Scan, next.Arrives (column :: outer) true (column + 2) text →
      Emits fuel next more) :
    Emits (fuel + 1) scan (.blockEntry :: more) := by
  refine Emits.of_inside arrives
    (fun other isHead => Option.some.inj isHead ▸ Nat.le_refl _) fun here isHere => ?_
  have same : here.openBlock column .blockSequenceStart = here := by
    simp [openBlock, isDeeper, isHere.columns_eq]
  obtain ⟨next, fetched, held, arrives⟩ := isHere.entry settled
  rw [same] at held arrives
  rw [isHere.columns_eq] at arrives
  exact ⟨next, fetched, (onward next arrives).yields _ held⟩

/-- A dash deeper than the innermost collection opens a sequence. -/
theorem Emits.firstEntry {fuel : Nat} {text : List Char} {more : List TokenKind}
    (settled : IsSettled text) (deeper : ∀ level ∈ columns.head?, level < column)
    (arrives : scan.Arrives columns true column ('-' :: ' ' :: text))
    (onward : ∀ next : Scan, next.Arrives (column :: columns) true (column + 2) text →
      Emits fuel next more) :
    Emits (fuel + 1) scan (.blockSequenceStart :: .blockEntry :: more) := by
  refine Emits.of_inside arrives
    (fun level isHead => Nat.le_of_lt (deeper level isHead)) fun here isHere => ?_
  have isDeeper : here.isDeeper column = true := by
    rw [isDeeper, isHere.columns_eq]
    simpa [Option.all_eq_true] using deeper
  obtain ⟨next, fetched, held, arrives⟩ := isHere.entry settled
  simp only [openBlock, isDeeper, if_true, isHere.columns_eq, push] at held arrives
  refine ⟨next, fetched,
    (onward next arrives).yields [.blockSequenceStart, .blockEntry] ?_⟩
  simpa [kinds] using held

/-- A written scalar on a line of its own is read as its text. -/
theorem Here.written {level : Nat} {outer : List Nat} {form text rest : List Char} {count : Nat}
    (isWritten : Written form text) (deeper : level < column) (shallow : count ≤ level)
    (settled : IsSettled rest)
    (noMarker : ∀ mark, Cursor.atDocumentMarker ⟨mark, List.replicate count ' ' ++ rest⟩ = false)
    (here : scan.Here (level :: outer) keyAllowed column
      (form ++ '\n' :: (List.replicate count ' ' ++ rest))) :
    ∃ next, scan.fetchHere = .ok next ∧
      kinds next.held = kinds scan.held ++ [.scalar (String.ofList text)] ∧
      next.Arrives (level :: outer) true count rest := by
  cases isWritten with
  | plain isPlain => exact here.plain isPlain deeper shallow settled noMarker
  | quoted _ reads => exact here.quoted deeper settled reads

/-- A written scalar on a line of its own gives its text. -/
theorem Emits.written {fuel : Nat} {level : Nat} {outer : List Nat} {form text rest : List Char}
    {count : Nat} {more : List TokenKind} (isWritten : Written form text) (deeper : level < column)
    (shallow : count ≤ level) (settled : IsSettled rest)
    (noMarker : ∀ mark, Cursor.atDocumentMarker ⟨mark, List.replicate count ' ' ++ rest⟩ = false)
    (arrives : scan.Arrives (level :: outer) keyAllowed column
      (form ++ '\n' :: (List.replicate count ' ' ++ rest)))
    (onward : ∀ next : Scan, next.Arrives (level :: outer) true count rest →
      Emits fuel next more) :
    Emits (fuel + 1) scan (.scalar (String.ofList text) :: more) := by
  refine Emits.of_inside arrives
    (fun other isHead => Option.some.inj isHead ▸ Nat.le_of_lt deeper) fun here isHere => ?_
  obtain ⟨next, fetched, held, arrives⟩ := isHere.written isWritten deeper shallow settled noMarker
  exact ⟨next, fetched, (onward next arrives).yields _ held⟩

/-- The entries of a block sequence, each on a new line at a column. -/
def entryLines (column : Nat) (forms : List (List Char)) : List Char :=
  forms.flatMap fun form => '\n' :: (List.replicate column ' ' ++ "- ".toList ++ form)

theorem entryLines_cons (column : Nat) (form : List Char) (forms : List (List Char)) :
    entryLines column (form :: forms) =
      '\n' :: (List.replicate column ' ' ++ '-' :: ' ' :: (form ++ entryLines column forms)) := by
  simp [entryLines]

/-- What the stream gives for entries that are scalars. -/
def entryKinds (texts : List (List Char)) : List TokenKind :=
  texts.flatMap fun text => [.blockEntry, .scalar (String.ofList text)]

/-- A state, in block context, behind which nothing but white space is left, and where
nothing has to become a key. -/
structure AtEnd (scan : Scan) (columns : List Nat) : Prop where
  columns_eq : scan.columns = columns
  noFlow : scan.flow = []
  unfinished : scan.finished = false
  isWhite : ∀ c ∈ scan.cursor.rest, c = ' ' ∨ c = '\n'
  free : ∀ candidate ∈ scan.candidate, candidate.required = false

/-- A state that is about to read what no token is left of is at the end. -/
theorem Arrives.atEnd (arrives : scan.Arrives columns keyAllowed column []) :
    scan.AtEnd columns := by
  obtain ⟨white, reaches⟩ := arrives.reaches
  refine ⟨arrives.columns_eq, arrives.noFlow, arrives.unfinished, ?_,
    fun candidate member => (reaches.past candidate member).1⟩
  rw [reaches.rest_eq, List.append_nil]
  exact reaches.isWhite

/-- The end of the text closes all collections. -/
theorem fetchHere_end (noFlow : scan.flow = []) (rest_eq : scan.cursor.rest = [])
    (free : ∀ candidate ∈ scan.candidate, candidate.required = false) :
    ∃ next, scan.fetchHere = .ok next ∧
      kinds next.held =
        kinds scan.held ++ List.replicate scan.columns.length .blockEnd ++ [.streamEnd] ∧
      next.finished = true ∧ next.flow = [] ∧ next.candidate = none := by
  have inBlock : scan.inFlow = false := by simp [inFlow, noFlow]
  have all : scan.columns.takeWhile (fun _ => true) = scan.columns :=
    List.takeWhile_eq_self_iff.2 fun _ _ => rfl
  have same : (scan.unwind none).candidate = scan.candidate := by simp [unwind, inBlock]
  have dropped : (scan.unwind none).dropCandidate =
      .ok { scan.unwind none with candidate := none } :=
    dropCandidate_of_free (by rw [same]; exact free)
  rw [fetchHere, rest_eq, List.isEmpty_nil, if_pos rfl, fetchEnd, dropped]
  exact ⟨_, rfl, by simp [pushIndicator, push, kinds, unwind, inBlock, all, List.map_const'], rfl,
    by simp [pushIndicator, push, unwind, inBlock, noFlow], rfl⟩

/-- A finished state hands out what it holds back. -/
theorem Emits.of_finished {fuel : Nat} (finished : scan.finished = true) (noFlow : scan.flow = [])
    (noCandidate : scan.candidate = none) : Emits (fuel + 1) scan [] := by
  have dropped := dropStale_eq scan (by simp [noFlow]) (by simp [noCandidate])
  simp [Emits, Yields, run, dropped, release, candidates, noCandidate, noFlow, finished]

/-- At the end of the text all collections end, and the stream. -/
theorem Emits.ending {fuel : Nat} (atEnd : scan.AtEnd columns) :
    Emits (fuel + 2) scan (List.replicate columns.length .blockEnd ++ [.streamEnd]) := by
  refine Emits.of_fetch (by simp [atEnd.noFlow]) atEnd.free atEnd.unfinished
    fun candidate taken held kept => ?_
  let start : Scan := { scan with candidate, taken, held }
  have free : ∀ other ∈ start.candidate, other.required = false :=
    fun other member => atEnd.free other (kept other member)
  have fetched := fetch_eq start start.cursor.rest (fun _ => atEnd.noFlow) isSettled_nil
    atEnd.isWhite (List.append_nil _).symm (by simp [start, atEnd.noFlow]) free
  rw [unwind_eq (start.pastWhite start.cursor.rest []) atEnd.noFlow] at fetched
  let mark := scan.cursor.mark.behind scan.cursor.rest
  let unwound : Scan := { start.pastWhite start.cursor.rest [] with
    columns := around scan.columns mark.column
    held := held ++ (closed scan.columns mark.column).map fun _ => ⟨.blockEnd, mark, mark⟩ }
  have noFlowUnwound : unwound.flow = [] := atEnd.noFlow
  have freeUnwound : ∀ other ∈ unwound.candidate, other.required = false :=
    fun other member => free other (Option.mem_filter_iff.1 member).1
  obtain ⟨next, read, heldNext, finished, noFlow, noCandidate⟩ :=
    fetchHere_end noFlowUnwound rfl freeUnwound
  refine ⟨next, fetched.trans read, ?_⟩
  have whole : columns.length =
      (closed columns mark.column).length + (around columns mark.column).length := by
    rw [← List.length_append, closed, around, List.takeWhile_append_dropWhile]
  have last : Emits (fuel + 1) next [] := .of_finished finished noFlow noCandidate
  have all : kinds next.held =
      kinds held ++ (List.replicate columns.length .blockEnd ++ [.streamEnd]) := by
    rw [heldNext, whole, ← List.replicate_append_replicate]
    simp [unwound, kinds, List.map_const', atEnd.columns_eq]
  rw [← all]
  simpa [Emits] using last

/-- Forms in which texts are written as the entries of a block sequence, if a text ends
with some characters behind the form of the last entry. -/
structure IsBlockForm (Form : List Char → List Char → Prop) (ending : List Char) : Prop where
  written : ∀ {form text : List Char}, Form form text → Written form text
  closes : ∀ {fuel level column : Nat} {outer : List Nat} {keyAllowed : Bool} {scan : Scan}
    {form text : List Char}, Form form text → level < column →
      scan.Arrives (level :: outer) keyAllowed column (form ++ ending) →
        Emits (fuel + 3) scan (.scalar (String.ofList text) ::
          (List.replicate (level :: outer).length .blockEnd ++ [.streamEnd]))

/-- Every written form may stand in a last line that a newline ends. -/
theorem isBlockForm_written : IsBlockForm Written ['\n'] where
  written := id
  closes isWritten deeper arrives :=
    Emits.written isWritten deeper (Nat.zero_le _) isSettled_nil (fun _ => rfl) arrives
      fun _ arrivesNext => Emits.ending arrivesNext.atEnd

/-- Behind the dash of an entry, the stream gives its scalar and all further entries of the
sequence, if what it gives behind the last form is known. -/
theorem Emits.entriesBefore {Form : List Char → List Char → Prop} {fuel : Nat} {outer : List Nat}
    {forms texts : List (List Char)} {form text ending : List Char} {more : List TokenKind}
    (written : ∀ {form text : List Char}, Form form text → Written form text)
    (last : ∀ {scan : Scan} {form text : List Char}, Form form text →
      scan.Arrives (column :: outer) true (column + 2) (form ++ ending) →
        Emits fuel scan (.scalar (String.ofList text) :: more))
    (isForm : Form form text) (areForms : List.Forall₂ Form forms texts)
    (arrives : scan.Arrives (column :: outer) true (column + 2)
      (form ++ (entryLines column forms ++ ending))) :
    Emits (fuel + 2 * forms.length) scan
      (.scalar (String.ofList text) :: (entryKinds texts ++ more)) := by
  induction areForms generalizing scan form text with
  | nil => exact last isForm arrives
  | @cons next nextText forms texts isNext areForms inductionHypothesis =>
      have lines : entryLines column (next :: forms) ++ ending =
          '\n' :: (List.replicate column ' ' ++
            '-' :: ' ' :: (next ++ (entryLines column forms ++ ending))) := by
        simp [entryLines_cons]
      rw [lines] at arrives
      refine Emits.written (written isForm) (by omega) (Nat.le_refl _)
        (isSettled_sign (by decide) _) ?_ arrives ?_
      · intro mark
        cases column <;> rfl
      · intro dash atDash
        refine Emits.entry ((written isNext).isSettled _) atDash fun item atItem => ?_
        exact inductionHypothesis isNext atItem

/-- At the end of a text, the entries of a sequence are followed by the ends of all
collections. -/
theorem Emits.entries {Form : List Char → List Char → Prop} {fuel : Nat} {outer : List Nat}
    {forms texts : List (List Char)} {form text ending : List Char}
    (isBlockForm : IsBlockForm Form ending) (isForm : Form form text)
    (areForms : List.Forall₂ Form forms texts)
    (arrives : scan.Arrives (column :: outer) true (column + 2)
      (form ++ (entryLines column forms ++ ending))) :
    Emits (fuel + 3 + 2 * forms.length) scan (.scalar (String.ofList text) ::
      (entryKinds texts ++
        (List.replicate (column :: outer).length .blockEnd ++ [.streamEnd]))) :=
  Emits.entriesBefore isBlockForm.written
    (fun isLast atLast => isBlockForm.closes isLast (by omega) atLast) isForm areForms arrives

end Scan

end Roster.Yaml
