import Roster.Proofs.Yaml.Grammar
import Roster.Proofs.Yaml.Portable

/-!
# The token stream of flow sequences

Inside brackets neither columns nor what might have become a key matter: every scalar is
a candidate that is given up at the next comma or bracket. `InSequence` describes a state
inside the brackets of a sequence, and each rule takes such a state to the next one.
-/

namespace Roster.Yaml

namespace Scan

variable {scan : Scan} {columns : List Nat}

/-- A state inside the brackets of a flow sequence that stands in block context, where
nothing has to become a key. -/
structure InSequence (scan : Scan) (columns : List Nat) (text : List Char) : Prop where
  columns_eq : scan.columns = columns
  flow_eq : scan.flow = [⟨.sequence, none⟩]
  unfinished : scan.finished = false
  free : ∀ candidate ∈ scan.candidate, candidate.required = false
  rest_eq : scan.cursor.rest = text

namespace InSequence

variable {text rest : List Char}

theorem inFlow (inside : scan.InSequence columns text) : scan.inFlow = true := by
  simp [Scan.inFlow, inside.flow_eq]

/-- Inside a flow sequence a token may always be a candidate, and need not become a key. -/
theorem saveCandidate (inside : scan.InSequence columns text) :
    ∃ candidate, scan.saveCandidate = .ok { scan with candidate } ∧
      ∀ saved ∈ candidate, saved.required = false := by
  have dropped := dropCandidate_of_free inside.free
  by_cases allowed : scan.keyAllowed = true
  · refine ⟨some ⟨scan.count, false, scan.cursor.mark⟩, ?_, by simp⟩
    simp [Scan.saveCandidate, allowed, dropped, inside.inFlow, bind, Except.bind, pure, Except.pure]
  · exact ⟨scan.candidate, by rw [Scan.saveCandidate, if_neg allowed], inside.free⟩

/-- An item is read up to the indicator behind it. -/
theorem item {form word : List Char} {c : Char} (isPortable : Portable form word)
    (isIndicator : isFlowIndicator c = true)
    (inside : scan.InSequence columns (form ++ c :: rest)) :
    ∃ next, scan.fetchHere = .ok next ∧
      kinds next.held = kinds scan.held ++ [.scalar (String.ofList word)] ∧
      next.InSequence columns (c :: rest) := by
  obtain ⟨candidate, saved, free⟩ := inside.saveCandidate
  have fetched := fetchHere_portable isPortable inside.rest_eq
    (.indicator inside.inFlow isIndicator rest) saved
  exact ⟨_, fetched, by simp [push, kinds],
    ⟨inside.columns_eq, inside.flow_eq, inside.unfinished, free, rfl⟩⟩

/-- A comma is read as the beginning of the next item. -/
theorem comma (inside : scan.InSequence columns (',' :: rest)) :
    ∃ next, scan.fetchHere = .ok next ∧ kinds next.held = kinds scan.held ++ [.flowEntry] ∧
      next.InSequence columns rest := by
  have fetched : scan.fetchHere = scan.fetchFlowEntry := by
    simp [fetchHere, inside.rest_eq, Cursor.peek_of_rest inside.rest_eq,
      Cursor.atMarker_of_rest inside.rest_eq]
  have behind := Cursor.skip_of_rest inside.rest_eq
  rw [fetched, fetchFlowEntry, dropCandidate_of_free inside.free]
  refine ⟨_, rfl, by simp [pushIndicator, push, kinds], ?_⟩
  exact
    { columns_eq := inside.columns_eq
      flow_eq := inside.flow_eq
      unfinished := inside.unfinished
      free := by simp [pushIndicator, push]
      rest_eq := by simp [pushIndicator, behind] }

/-- A bracket closes the sequence. -/
theorem close (inside : scan.InSequence columns (']' :: rest)) :
    ∃ next, scan.fetchHere = .ok next ∧
      kinds next.held = kinds scan.held ++ [.flowSequenceEnd] ∧
      next.Behind columns next.cursor.column rest := by
  have fetched : scan.fetchHere = scan.fetchFlowEnd .flowSequenceEnd := by
    simp [fetchHere, inside.rest_eq, Cursor.peek_of_rest inside.rest_eq,
      Cursor.atMarker_of_rest inside.rest_eq]
  have behind := Cursor.skip_of_rest inside.rest_eq
  rw [fetched, fetchFlowEnd, dropCandidate_of_free inside.free]
  simp only [bind, Except.bind, inside.flow_eq]
  refine ⟨_, rfl, by simp [pushIndicator, push, kinds], ?_⟩
  exact
    { columns_eq := inside.columns_eq
      noFlow := rfl
      unfinished := inside.unfinished
      noKey := rfl
      noCandidate := rfl
      rest_eq := by simp [pushIndicator, behind]
      column_eq := rfl }

end InSequence

/-- Inside a flow sequence nothing is closed in front of the next token. -/
theorem Emits.inSequence {fuel : Nat} {white text : List Char} {more : List TokenKind}
    (isSpace : ∀ c ∈ white, c = ' ') (settled : IsSettled text)
    (inside : scan.InSequence columns (white ++ text))
    (reads : ∀ here : Scan, here.InSequence columns text →
      ∃ next, here.fetchHere = .ok next ∧ Yields fuel next (kinds here.held ++ more)) :
    Emits (fuel + 1) scan more := by
  refine Emits.of_fetch (by simp [inside.flow_eq]) inside.free inside.unfinished
    fun candidate taken held kept => ?_
  let start : Scan := { scan with candidate, taken, held }
  have free : ∀ other ∈ start.candidate, other.required = false :=
    fun other member => inside.free other (kept other member)
  have noBreak : '\n' ∉ white := fun member => absurd (isSpace _ member) (by decide)
  have fetched := fetch_eq start white (fun newline => absurd newline noBreak) settled
    (fun c member => .inl (isSpace c member)) inside.rest_eq
    (by simp [start, inside.flow_eq]) free
  have here : (start.pastWhite white text).InSequence columns text :=
    { columns_eq := inside.columns_eq
      flow_eq := inside.flow_eq
      unfinished := inside.unfinished
      free := fun other member => free other (Option.mem_filter_iff.1 member).1
      rest_eq := rfl }
  rw [unwind, if_pos here.inFlow] at fetched
  obtain ⟨next, read, yields⟩ := reads _ here
  exact ⟨next, fetched.trans read, yields⟩

/-- An item inside a flow sequence gives its text. -/
theorem Emits.item {fuel : Nat} {form text white rest : List Char} {c : Char}
    {more : List TokenKind} (isPortable : Portable form text)
    (isIndicator : isFlowIndicator c = true) (isSpace : ∀ c ∈ white, c = ' ')
    (inside : scan.InSequence columns (white ++ (form ++ c :: rest)))
    (onward : ∀ next : Scan, next.InSequence columns (c :: rest) → Emits fuel next more) :
    Emits (fuel + 1) scan (.scalar (String.ofList text) :: more) := by
  refine Emits.inSequence isSpace (isPortable.written.isSettled _) inside fun here isHere => ?_
  obtain ⟨next, fetched, held, nextInside⟩ := isHere.item isPortable isIndicator
  exact ⟨next, fetched, (onward next nextInside).yields _ held⟩

/-- A comma inside a flow sequence gives its token. -/
theorem Emits.comma {fuel : Nat} {rest : List Char} {more : List TokenKind}
    (inside : scan.InSequence columns (',' :: rest))
    (onward : ∀ next : Scan, next.InSequence columns rest → Emits fuel next more) :
    Emits (fuel + 1) scan (.flowEntry :: more) := by
  refine Emits.inSequence (List.forall_mem_nil _)
    (isSettled_sign (by decide) _) inside
    fun here isHere => ?_
  obtain ⟨next, fetched, held, nextInside⟩ := isHere.comma
  exact ⟨next, fetched, (onward next nextInside).yields _ held⟩

/-- A closing bracket gives the end of the flow sequence. -/
theorem Emits.closeSequence {fuel : Nat} {rest : List Char} {more : List TokenKind}
    (inside : scan.InSequence columns (']' :: rest))
    (onward : ∀ next : Scan, next.Behind columns next.cursor.column rest → Emits fuel next more) :
    Emits (fuel + 1) scan (.flowSequenceEnd :: more) := by
  refine Emits.inSequence (List.forall_mem_nil _)
    (isSettled_sign (by decide) _) inside
    fun here isHere => ?_
  obtain ⟨next, fetched, held, behind⟩ := isHere.close
  exact ⟨next, fetched, (onward next behind).yields _ held⟩

/-- The bracket at the end of a text ends the flow sequence and all block collections. -/
theorem Emits.close {fuel : Nat} {ending : List Char}
    (inside : scan.InSequence columns (']' :: ending))
    (isWhite : ∀ c ∈ ending, c = ' ' ∨ c = '\n') :
    Emits (fuel + 3) scan
      (.flowSequenceEnd :: (List.replicate columns.length .blockEnd ++ [.streamEnd])) :=
  Emits.closeSequence inside fun _ behind => Emits.ending (behind.atEnd isWhite)

/-- The items of a flow sequence at the end of a text give their texts with commas between
them, and then all ends. -/
theorem Emits.flowItems {fuel : Nat} {forms texts : List (List Char)}
    {form text white ending : List Char} (isPortable : Portable form text)
    (arePortable : List.Forall₂ Portable forms texts) (isSpace : ∀ c ∈ white, c = ' ')
    (isWhite : ∀ c ∈ ending, c = ' ' ∨ c = '\n')
    (inside : scan.InSequence columns
      (white ++ ([',', ' '].intercalate (form :: forms) ++ ']' :: ending))) :
    Emits (fuel + 4 + 2 * forms.length) scan (.scalar (String.ofList text) ::
      (Compose.laterItems (texts.map String.ofList) ++ .flowSequenceEnd ::
        (List.replicate columns.length .blockEnd ++ [.streamEnd]))) := by
  induction arePortable generalizing scan form text white with
  | nil =>
      rw [List.intercalate_singleton] at inside
      exact Emits.item isPortable rfl isSpace inside fun bracket atBracket =>
        Emits.close atBracket isWhite
  | @cons other otherText forms texts isOther _ inductionHypothesis =>
      rw [List.intercalate_cons_cons, List.append_assoc, List.append_assoc] at inside
      exact Emits.item isPortable rfl isSpace inside fun comma atComma =>
        Emits.comma atComma fun space atSpace =>
          inductionHypothesis isOther (show ∀ c ∈ [' '], c = ' ' by simp) atSpace

/-- A bracket behind a colon opens a flow sequence. -/
theorem Emits.openSequence {fuel : Nat} {level column : Nat} {outer : List Nat}
    {text : List Char} {more : List TokenKind} (deeper : level ≤ column)
    (behind : scan.Behind (level :: outer) column (' ' :: '[' :: text))
    (onward : ∀ next : Scan, next.InSequence (level :: outer) text → Emits fuel next more) :
    Emits (fuel + 1) scan (.flowSequenceStart :: more) := by
  have arrives := behind.arrives_space
    (isSettled_sign (by decide) _)
  refine Emits.of_inside arrives
    (fun other isHead => Option.some.inj isHead ▸ Nat.le_succ_of_le deeper) fun here isHere => ?_
  have fetched : here.fetchHere = here.fetchFlowStart .sequence := by
    simp [fetchHere, isHere.rest_eq, Cursor.peek_of_rest isHere.rest_eq,
      Cursor.atMarker_of_rest isHere.rest_eq]
  have saved : here.saveCandidate = .ok here := by
    rw [saveCandidate, isHere.keyAllowed_eq]
    rfl
  have past := Cursor.skip_of_rest isHere.rest_eq
  rw [fetched, fetchFlowStart, saved]
  refine ⟨_, rfl, (onward _ ?_).yields [.flowSequenceStart] (by simp [pushIndicator, push, kinds])⟩
  exact
    { columns_eq := isHere.columns_eq
      flow_eq := by simp [pushIndicator, push, isHere.noFlow, isHere.noCandidate]
      unfinished := isHere.unfinished
      free := by simp [pushIndicator, push]
      rest_eq := by simp [pushIndicator, past] }

end Scan

end Roster.Yaml
