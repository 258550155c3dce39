import Roster.Proofs.Yaml.SequenceDocument

/-!
# Documents without content

A text of nothing but empty lines and comments holds no document. One start marker
among such lines makes a difference: behind it there is a document, whose only node is
an empty scalar.
-/

namespace Roster.Yaml

/-- A line that says nothing: it is empty, or a comment of printable characters of ASCII. -/
inductive IdleLine where
  | blank
  | comment (text : List Char) (printable : ∀ c ∈ text, 0x20 ≤ c.toNat ∧ c.toNat ≤ 0x7E)

/-- What is written in a line. -/
def IdleLine.written : IdleLine → List Char
  | blank => []
  | comment text _ => '#' :: text

/-- Lines that say nothing, each ended by a newline. -/
def idleText (lines : List IdleLine) : List Char :=
  lines.flatMap fun line => line.written ++ ['\n']

theorem idleText_cons (line : IdleLine) (others : List IdleLine) :
    idleText (line :: others) = line.written ++ '\n' :: idleText others := by
  simp [idleText]

/-- The characters that stand in lines that say nothing. -/
theorem forall_mem_idleText {P : Char → Prop} (ofNewline : P '\n')
    (ofPrintable : ∀ c : Char, 0x20 ≤ c.toNat → c.toNat ≤ 0x7E → P c) (lines : List IdleLine) :
    ∀ c ∈ idleText lines, P c := by
  intro c member
  obtain ⟨line, -, inLine⟩ := List.mem_flatMap.1 member
  rcases List.mem_append.1 inLine with inWritten | isNewline
  · cases line with
    | blank => cases inWritten
    | comment text printable =>
        rcases List.mem_cons.1 inWritten with rfl | inText
        · exact ofPrintable '#' (by decide) (by decide)
        · exact ofPrintable c (printable c inText).1 (printable c inText).2
  · exact List.mem_singleton.1 isNewline ▸ ofNewline

/-- Behind whole lines is the beginning of a line. -/
theorem Mark.column_behind_idleText {mark : Mark} (begins : mark.column = 0)
    (lines : List IdleLine) : (mark.behind (idleText lines)).column = 0 := by
  induction lines generalizing mark with
  | nil => exact begins
  | cons line others inductionHypothesis =>
      have lineEnd : ((mark.behind line.written).after '\n').column = 0 := by simp [after]
      rw [idleText_cons, behind_append, behind_cons]
      exact inductionHypothesis lineEnd

namespace Scan

variable {scan : Scan}

/-- A comment is skipped together with the newline that ends it. -/
theorem skipToToken_go_comment (mark : Mark) (keyAllowed : Bool) {text : List Char}
    (inside : ∀ c ∈ text, endsContent c = false) (rest : List Char) :
    skipToToken.go scan mark keyAllowed true (text ++ '\n' :: rest) =
      skipToToken.go scan ((mark.behind text).after '\n') (keyAllowed || !scan.inFlow) false
        rest := by
  induction text generalizing mark with
  | nil =>
      have isBreak : isBreak '\n' = true := rfl
      have ends : endsContent '\n' = true := rfl
      simp [skipToToken.go, isBreak, ends]
  | cons c others inductionHypothesis =>
      have goesOn : endsContent c = false := inside c List.mem_cons_self
      have behind := inductionHypothesis (mark.after c)
        fun d member => inside d (List.mem_cons_of_mem _ member)
      simpa [skipToToken.go, goesOn] using behind

/-- No printable character of ASCII ends a comment. -/
theorem endsContent_of_printable {c : Char} (low : 0x20 ≤ c.toNat) (high : c.toNat ≤ 0x7E) :
    endsContent c = false := by
  have differs : ∀ d : Char, d.toNat < 0x20 ∨ 0x7E < d.toNat → c ≠ d := by
    rintro d outside rfl
    omega
  simp [endsContent, differs '\n' (by decide), differs endOfText (by decide),
    differs '\r' (by decide), differs '\x85' (by decide)]

/-- In block context, a line that says nothing is skipped, and a key may begin behind it. -/
theorem skipToToken_go_line (noFlow : scan.flow = []) (mark : Mark) (keyAllowed : Bool)
    (line : IdleLine) (rest : List Char) :
    skipToToken.go scan mark keyAllowed false (line.written ++ '\n' :: rest) =
      skipToToken.go scan ((mark.behind line.written).after '\n') true false rest := by
  have inBlock : scan.inFlow = false := by simp [inFlow, noFlow]
  cases line with
  | blank =>
      have isBreak : isBreak '\n' = true := rfl
      simp [IdleLine.written, skipToToken.go, isBreak, inBlock]
  | comment text printable =>
      have inside : ∀ c ∈ text, endsContent c = false := fun c member =>
        endsContent_of_printable (printable c member).1 (printable c member).2
      have skipped :
          skipToToken.go scan (mark.after '#') keyAllowed true (text ++ '\n' :: rest) = _ :=
        skipToToken_go_comment (mark.after '#') keyAllowed inside rest
      simpa [IdleLine.written, skipToToken.go, inBlock] using skipped

/-- In block context, all lines that say nothing are skipped. -/
theorem skipToToken_go_idleText (noFlow : scan.flow = []) (mark : Mark) (keyAllowed : Bool)
    (lines : List IdleLine) (rest : List Char) :
    ∃ allowed, skipToToken.go scan mark keyAllowed false (idleText lines ++ rest) =
      skipToToken.go scan (mark.behind (idleText lines)) allowed false rest := by
  induction lines generalizing mark keyAllowed with
  | nil => exact ⟨keyAllowed, rfl⟩
  | cons line others inductionHypothesis =>
      obtain ⟨allowed, skipped⟩ :=
        inductionHypothesis ((mark.behind line.written).after '\n') true
      refine ⟨allowed, ?_⟩
      rw [idleText_cons, List.append_assoc, List.cons_append, skipToToken_go_line noFlow, skipped,
        Mark.behind_append, Mark.behind_cons]

/-- A state with nothing open and without a candidate. -/
structure IsBare (scan : Scan) : Prop where
  noColumns : scan.columns = []
  noFlow : scan.flow = []
  noCandidate : scan.candidate = none
  unfinished : scan.finished = false

/-- With nothing open, reading the next token begins behind the lines that say nothing. -/
theorem IsBare.fetch (bare : scan.IsBare) {lines : List IdleLine} {text : List Char}
    (settled : IsSettled text) (rest_eq : scan.cursor.rest = idleText lines ++ text) :
    ∃ here : Scan, scan.fetch = here.fetchHere ∧ here.held = scan.held ∧
      here.Here [] here.keyAllowed (scan.cursor.mark.behind (idleText lines)).column text := by
  have noMark : (scan.cursor.mark.index == 0 && scan.cursor.peek == '\ufeff') = false := by
    rw [Bool.and_eq_false_iff]
    right
    rw [Cursor.peek, rest_eq]
    cases lines with
    | nil =>
        cases text with
        | nil => rfl
        | cons c others =>
            have other : c ≠ '\ufeff' := fun same => settled.noMark (by simp [same])
            exact beq_false_of_ne other
    | cons line others =>
        rw [idleText_cons]
        cases line <;> rfl
  obtain ⟨allowed, skippedLines⟩ :=
    skipToToken_go_idleText bare.noFlow scan.cursor.mark scan.keyAllowed lines text
  have stops : skipToToken.go scan _ allowed false ([] ++ text) = _ :=
    skipToToken_go (scan.cursor.mark.behind (idleText lines)) (List.forall_mem_nil _)
      (fun _ => bare.noFlow) settled allowed
  let here : Scan := { scan with
    cursor := ⟨scan.cursor.mark.behind (idleText lines), text⟩, keyAllowed := allowed }
  have skipped : scan.skipToToken = here := by
    simp only [skipToToken, noMark, Bool.false_eq_true, if_false, rest_eq, skippedLines]
    rw [← List.nil_append text, stops]
    simp [here]
  have dropped : here.dropStale = .ok here := by
    rw [dropStale_eq here (by simp [here, bare.noFlow]) (by simp [here, bare.noCandidate])]
    simp [here, bare.noCandidate]
  have unwound : here.unwind (some here.cursor.column) = here := by
    rw [unwind_eq here bare.noFlow]
    simp [here, bare.noColumns, around, closed]
  refine ⟨here, ?_, rfl, ?_⟩
  · rw [Scan.fetch, skipped, dropped]
    exact congrArg fetchHere unwound
  · exact
      { columns_eq := bare.noColumns
        noFlow := bare.noFlow
        unfinished := bare.unfinished
        keyAllowed_eq := rfl
        noCandidate := bare.noCandidate
        rest_eq := rfl
        column_eq := rfl }

/-- With nothing open, the token behind lines that say nothing decides what reading on
gives. -/
theorem Emits.of_idleText {fuel : Nat} (bare : scan.IsBare) {lines : List IdleLine}
    {text : List Char} (settled : IsSettled text)
    (rest_eq : scan.cursor.rest = idleText lines ++ text) {more : List TokenKind}
    (reads : ∀ here : Scan,
      here.Here [] here.keyAllowed (scan.cursor.mark.behind (idleText lines)).column text →
        ∃ next, here.fetchHere = .ok next ∧ Yields fuel next (kinds here.held ++ more)) :
    Emits (fuel + 1) scan more := by
  refine Emits.of_fetch (by simp [bare.noFlow]) (by simp [bare.noCandidate]) bare.unfinished
    fun candidate taken held kept => ?_
  have noCandidate : candidate = none := Option.eq_none_iff_forall_not_mem.2
    fun other member => by simpa [bare.noCandidate] using kept other member
  have stillBare : ({ scan with candidate, taken, held } : Scan).IsBare :=
    ⟨bare.noColumns, bare.noFlow, noCandidate, bare.unfinished⟩
  obtain ⟨here, fetched, heldHere, isHere⟩ := stillBare.fetch settled rest_eq
  obtain ⟨next, read, yields⟩ := reads here isHere
  exact ⟨next, by rw [fetched, read], by rwa [heldHere] at yields⟩

/-- Behind nothing but lines that say nothing, the stream ends. -/
theorem Emits.idleEnd {fuel : Nat} (bare : scan.IsBare) {lines : List IdleLine}
    (rest_eq : scan.cursor.rest = idleText lines) : Emits (fuel + 2) scan [.streamEnd] := by
  have nothingBehind : scan.cursor.rest = idleText lines ++ [] := by rw [rest_eq, List.append_nil]
  refine Emits.of_idleText bare isSettled_nil nothingBehind fun here isHere => ?_
  obtain ⟨next, read, heldNext, finished, noFlow, noCandidate⟩ :=
    fetchHere_end isHere.noFlow isHere.rest_eq (by simp [isHere.noCandidate])
  have last : Emits (fuel + 1) next [] := .of_finished finished noFlow noCandidate
  have heldAll : kinds next.held = kinds here.held ++ [.streamEnd] := by
    simpa [isHere.columns_eq] using heldNext
  exact ⟨next, read, last.yields [.streamEnd] heldAll⟩

/-- The line that marks the start of a document. -/
def markerLine : List Char := ['-', '-', '-', '\n']

/-- At the beginning of a line, the marker of a document is read up to its newline. -/
theorem Here.fetchHere_documentStart {keyAllowed : Bool} {rest : List Char}
    (here : scan.Here [] keyAllowed 0 (markerLine ++ rest)) :
    ∃ next, scan.fetchHere = .ok next ∧ kinds next.held = kinds scan.held ++ [.documentStart] ∧
      next.IsBare ∧ next.cursor.rest = '\n' :: rest := by
  have closed : scan.closeDocument = .ok { scan with keyAllowed := false } := by
    simp [closeDocument, unwind, dropCandidate, inFlow, here.noFlow, here.columns_eq,
      here.noCandidate, bind, Except.bind, pure, Except.pure]
  have cursor_eq : scan.cursor = ⟨scan.cursor.mark, '-' :: '-' :: '-' :: '\n' :: rest⟩ :=
    here.cursor_eq
  have isMarker : scan.cursor.atMarker '-' = true := by
    rw [cursor_eq]
    rfl
  have peek : scan.cursor.peek = '-' := Cursor.peek_of_rest here.rest_eq
  have read : scan.fetchHere = scan.fetchDocumentStart := by
    simp [fetchHere, here.rest_eq, markerLine, peek, here.column_eq, isMarker]
  rw [read, fetchDocumentStart, closed]
  refine ⟨_, rfl, by simp [pushIndicator, push, kinds], ?_, ?_⟩
  · exact ⟨here.columns_eq, here.noFlow, here.noCandidate, here.unfinished⟩
  · show (scan.cursor.skip 3).rest = '\n' :: rest
    rw [cursor_eq]
    rfl

/-- With a marker among lines that say nothing, a document starts before the stream ends. -/
theorem Emits.markedEnd {fuel : Nat} (bare : scan.IsBare) (begins : scan.cursor.mark.column = 0)
    {before behind : List IdleLine}
    (rest_eq : scan.cursor.rest = idleText before ++ (markerLine ++ idleText behind)) :
    Emits (fuel + 3) scan [.documentStart, .streamEnd] := by
  refine Emits.of_idleText bare (isSettled_sign (by decide) _) rest_eq fun here isHere => ?_
  rw [Mark.column_behind_idleText begins] at isHere
  obtain ⟨next, read, heldNext, bareNext, restNext⟩ := isHere.fetchHere_documentStart
  have idleNext : next.cursor.rest = idleText (.blank :: behind) := by
    rw [restNext, idleText_cons]
    rfl
  have onward : Emits (fuel + 2) next [.streamEnd] := Emits.idleEnd bareNext idleNext
  exact ⟨next, read, onward.yields [.documentStart] heldNext⟩

end Scan

namespace Compose

/-- A stream without any token between its ends holds no document. -/
theorem takes_document_none : Takes document [.streamStart] [.streamEnd] (· = none) := by
  rw [document]
  refine Takes.take_bind fun _ _ => Takes.get_bind fun state _ => ?_
  refine Takes.peek_bind rfl fun next isEnd => ?_
  simp only [isEnd]
  exact Takes.pure rfl

/-- The start marker of a document puts the latest rules in force. -/
theorem run_documentStart {state : Composition} {token : Token} {others : List Token}
    (isStart : token.kind = .documentStart) (tokens : state.tokens = token :: others) :
    documentStart.run state =
      (.ok token, { state with tokens := others, version := none, handles := defaultHandles }) := by
  obtain ⟨_, failure, version, handles, anchors⟩ := state
  obtain ⟨_, start, finish⟩ := token
  cases isStart
  cases tokens
  rfl

/-- At the end of the stream, a document behind its start marker is an empty scalar. -/
theorem takes_markedContent_end (fuel : Nat) :
    Takes (markedContent fuel) [] [.streamEnd] (·.Means (.text "")) := by
  rw [markedContent]
  refine Takes.peek_bind rfl fun token isEnd => ?_
  simp only [isEnd]
  exact Takes.pure (Node.means_scalar _ "")

/-- The end of a stream behind a document takes nothing, and no other document is met. -/
theorem takes_lastDocument {action : Compose Node} {property : Node → Prop}
    (takes : Takes action [] [.streamEnd] property) :
    Takes (do
        let root <- action
        expectEnd root (<- documentEnd)
        return some root) [] [.streamEnd] fun found =>
          ∃ root, found = some root ∧ property root := by
  refine Takes.look_bind takes fun root holds => ?_
  refine Takes.look_bind takes_documentEnd ?_
  rintro _ rfl
  refine Takes.look_bind (takes_expectEnd root []) fun _ _ => ?_
  exact Takes.pure ⟨root, rfl, holds⟩

/-- A start marker in front of the end of the stream makes a document of an empty scalar,
and leaves no version in force. -/
theorem run_document_marked {state : Composition}
    (tokens : kinds state.tokens = [.streamStart, .documentStart, .streamEnd]) :
    ∃ root final, document.run state = (.ok (some root), final) ∧ root.Means (.text "") ∧
      final.version = none := by
  obtain ⟨tokens, failure, version, handles, anchors⟩ := state
  obtain ⟨first, rest, rfl, -, restKinds⟩ := List.map_eq_cons_iff.1 tokens
  obtain ⟨marker, last, rfl, isMarker, lastKinds⟩ := List.map_eq_cons_iff.1 restKinds
  let inside : Composition := ⟨marker :: last, failure, version, handles, anchors⟩
  let behind : Composition := ⟨last, failure, none, defaultHandles, anchors⟩
  have took : take.run ⟨first :: marker :: last, failure, version, handles, anchors⟩ =
      (.ok first, inside) := rfl
  have got : (get : Compose Composition).run inside = (.ok inside, inside) := rfl
  have started : documentStart.run inside = (.ok marker, behind) := run_documentStart isMarker rfl
  obtain ⟨found, ran, root, rfl, means⟩ :=
    takes_lastDocument (takes_markedContent_end (4 * inside.tokens.length + 4)) behind [] last rfl
      lastKinds rfl
  refine ⟨root, behind, ?_, means, rfl⟩
  rw [document, run_bind_of_ok took, run_bind_of_ok got, run_bind_of_ok (run_peek rfl)]
  simp only [isMarker]
  exact (run_bind_of_ok started).trans ran

end Compose

/-- A text that holds at most an empty document: lines that say nothing, and at most one
line with a start marker among them. -/
structure EmptyDocument where
  before : List IdleLine
  /-- The lines behind the marker, if there is one. -/
  behind : Option (List IdleLine)

namespace EmptyDocument

/-- Whether a start marker stands among the lines. -/
def isMarked (document : EmptyDocument) : Bool :=
  document.behind.isSome

/-- The text of all the lines. -/
def text (document : EmptyDocument) : List Char :=
  idleText document.before ++
    match document.behind with
    | none => []
    | some lines => Scan.markerLine ++ idleText lines

/-- The characters of an empty document. -/
theorem forall_mem_text {P : Char → Prop} (ofNewline : P '\n')
    (ofPrintable : ∀ c : Char, 0x20 ≤ c.toNat → c.toNat ≤ 0x7E → P c)
    (document : EmptyDocument) : ∀ c ∈ document.text, P c := by
  have ofLines := forall_mem_idleText ofNewline ofPrintable
  obtain ⟨before, _ | lines⟩ := document <;>
    simp only [text, List.mem_append, List.not_mem_nil, or_false]
  · exact ofLines before
  · rintro c (inBefore | inMarker | inBehind)
    · exact ofLines before c inBefore
    · have ofDash : P '-' := ofPrintable '-' (by decide) (by decide)
      simp only [Scan.markerLine, List.mem_cons, List.not_mem_nil, or_false] at inMarker
      rcases inMarker with rfl | rfl | rfl | rfl
      · exact ofDash
      · exact ofDash
      · exact ofDash
      · exact ofNewline
    · exact ofLines lines c inBehind

theorem firstUnreadable_text (document : EmptyDocument) : firstUnreadable document.text = none := by
  refine firstUnreadable_eq_none (document.forall_mem_text (by decide) fun c low high => ?_)
  simp [isReadable, low, high]

theorem start_isBare (version : Version) (document : EmptyDocument) :
    (Scan.start version document.text).IsBare :=
  ⟨rfl, rfl, rfl, rfl⟩

/-- Without a start marker there is no document. -/
theorem load_unmarked (version : Option Version) {document : EmptyDocument}
    (unmarked : document.isMarked = false) : load version document.text = (.ok none, version) := by
  obtain ⟨before, behind⟩ := document
  obtain rfl : behind = none := by simpa [isMarked] using unmarked
  let document : EmptyDocument := ⟨before, none⟩
  let start := Scan.start (version.getD .v12) document.text
  have startsIdle : start.cursor.rest = idleText before := by
    simp [start, Scan.start, Cursor.start, document, text]
  have emits : Scan.Emits (document.text.length + 2) start [.streamEnd] :=
    Scan.Emits.idleEnd (document.start_isBare _) startsIdle
  have tokens : kinds (tokenize (version.getD .v12) document.text).tokens =
      [.streamStart, .streamEnd] := emits.2
  obtain ⟨first, last, split, firstKinds, lastKinds⟩ :=
    List.map_eq_append_iff.1 (show _ = [TokenKind.streamStart] ++ [.streamEnd] from tokens)
  obtain ⟨_, ran, rfl⟩ := Compose.takes_document_none (.ofText version document.text) first last
    firstKinds lastKinds split
  have composed : compose version document.text = (.ok none, version) := compose_eq ran
  simp only [load, document.firstUnreadable_text, document, composed]
  rfl

/-- With a start marker, the document is an empty text, and no version stays in force. -/
theorem load_marked (version : Option Version) {document : EmptyDocument}
    (marked : document.isMarked = true) :
    load version document.text = (.ok (some (.text "")), none) := by
  obtain ⟨before, behind⟩ := document
  obtain ⟨lines, rfl⟩ := Option.isSome_iff_exists.1 marked
  let document : EmptyDocument := ⟨before, some lines⟩
  obtain ⟨spare, length⟩ : ∃ spare, document.text.length + 2 = spare + 3 :=
    Nat.exists_eq_add_of_le' (by simp [document, text, Scan.markerLine]; omega)
  let start := Scan.start (version.getD .v12) document.text
  have startsMarked : start.cursor.rest = idleText before ++ (Scan.markerLine ++ idleText lines) :=
    rfl
  have emits : Scan.Emits (spare + 3) start [.documentStart, .streamEnd] :=
    Scan.Emits.markedEnd (document.start_isBare _) rfl startsMarked
  have tokens : kinds (tokenize (version.getD .v12) document.text).tokens =
      [.streamStart, .documentStart, .streamEnd] := by
    rw [tokenize, length]
    exact emits.2
  obtain ⟨root, final, ran, means, unversioned⟩ :
      ∃ root final, Compose.document.run (.ofText version document.text) =
        (.ok (some root), final) ∧ _ := Compose.run_document_marked tokens
  have composed : compose version document.text = (.ok (some root), final.version) :=
    compose_eq ran
  simp only [load, document.firstUnreadable_text, document, composed, unversioned, bind,
    Except.bind, means.toValue]
  rfl

end EmptyDocument

end Roster.Yaml
