import Roster.Proofs.Yaml.Cursor
import Roster.Yaml.Token.Stream

/-!
# From one token to the next

Between two tokens the stream hands out what is held back, skips white space, and
closes the collections that the next token is not inside of. In block context none
of this depends on what is held back or was handed out. `Arrives` describes a state
by the token it is about to read, and `Emits` says which tokens reading on from a
state gives; `Emits.of_here` reduces it to the reading of that one token.
-/

namespace Roster.Yaml

/-- What tokens say, without their places. -/
def kinds (tokens : List Token) : List TokenKind :=
  tokens.map Token.kind

@[simp] theorem kinds_append (first second : List Token) :
    kinds (first ++ second) = kinds first ++ kinds second :=
  List.map_append

/-- The texts in front of which no white space and no comment is skipped. -/
structure IsSettled (text : List Char) : Prop where
  noSpace : text.head? ≠ some ' '
  noTab : text.head? ≠ some '\t'
  noComment : text.head? ≠ some '#'
  noBreak : ∀ c ∈ text.head?, isBreak c = false
  noMark : text.head? ≠ some '\ufeff'

theorem isSettled_nil : IsSettled [] :=
  ⟨by decide, by decide, by decide, (fun _ isHead => by cases isHead), by decide⟩

theorem isSettled_cons {c : Char} {rest : List Char} (noSpace : c ≠ ' ') (noTab : c ≠ '\t')
    (noComment : c ≠ '#') (noBreak : isBreak c = false) (noMark : c ≠ '\ufeff') :
    IsSettled (c :: rest) where
  noSpace := by simpa using noSpace
  noTab := by simpa using noTab
  noComment := by simpa using noComment
  noBreak := fun d isHead => Option.some.inj isHead ▸ noBreak
  noMark := by simpa using noMark

/-- What is skipped is decided by the first character. -/
theorem IsSettled.of_head?_eq {text other : List Char} (settled : IsSettled text)
    (same : other.head? = text.head?) : IsSettled other where
  noSpace := same ▸ settled.noSpace
  noTab := same ▸ settled.noTab
  noComment := same ▸ settled.noComment
  noBreak := same ▸ settled.noBreak
  noMark := same ▸ settled.noMark

/-- Indicators and quotation marks are not skipped. -/
theorem isSettled_sign {c : Char} (isSign : c ∈ ['-', ':', ',', '[', ']', '\'', '"'])
    (rest : List Char) : IsSettled (c :: rest) := by
  simp only [List.mem_cons, List.not_mem_nil, or_false] at isSign
  rcases isSign with rfl | rfl | rfl | rfl | rfl | rfl | rfl
  all_goals exact isSettled_cons (by decide) (by decide) (by decide) (by decide) (by decide)

/-- A line break and the indentation of the next line are white space. -/
theorem isWhite_newline (count : Nat) :
    ∀ c ∈ '\n' :: List.replicate count ' ', c = ' ' ∨ c = '\n' := by
  intro c member
  rcases List.mem_cons.1 member with newline | space
  · exact .inr newline
  · exact .inl (List.eq_of_mem_replicate space)

namespace Scan

/-- White space leads from a state to a text at a column, where a key may begin or
not, and leaves the candidate behind, which need not become a key. -/
structure Reaches (scan : Scan) (white : List Char) (keyAllowed : Bool) (column : Nat)
    (text : List Char) : Prop where
  isWhite : ∀ c ∈ white, c = ' ' ∨ c = '\n'
  rest_eq : scan.cursor.rest = white ++ text
  column_eq : (scan.cursor.mark.behind white).column = column
  keyAllowed_eq : (scan.keyAllowed || white.contains '\n') = keyAllowed
  past : ∀ candidate ∈ scan.candidate,
    candidate.required = false ∧ candidate.mark.line ≠ (scan.cursor.mark.behind white).line

/-- A state that is about to read the token in front of a text at a column, in
block context, where a key may begin or not. -/
structure Arrives (scan : Scan) (columns : List Nat) (keyAllowed : Bool) (column : Nat)
    (text : List Char) : Prop where
  columns_eq : scan.columns = columns
  noFlow : scan.flow = []
  unfinished : scan.finished = false
  settled : IsSettled text
  reaches : ∃ white, scan.Reaches white keyAllowed column text

/-- A state at the first character of a token, in block context. -/
structure Here (scan : Scan) (columns : List Nat) (keyAllowed : Bool) (column : Nat)
    (text : List Char) : Prop where
  columns_eq : scan.columns = columns
  noFlow : scan.flow = []
  unfinished : scan.finished = false
  keyAllowed_eq : scan.keyAllowed = keyAllowed
  noCandidate : scan.candidate = none
  rest_eq : scan.cursor.rest = text
  column_eq : scan.cursor.column = column

/-- White space is skipped; a line break in it, which stands in block context only,
lets a key begin. -/
theorem skipToToken_go {scan : Scan} (mark : Mark) {white text : List Char}
    (isWhite : ∀ c ∈ white, c = ' ' ∨ c = '\n') (inBlock : '\n' ∈ white → scan.flow = [])
    (settled : IsSettled text) (keyAllowed : Bool) :
    skipToToken.go scan mark keyAllowed false (white ++ text) =
      (keyAllowed || white.contains '\n', ⟨mark.behind white, text⟩) := by
  induction white generalizing mark keyAllowed with
  | nil =>
      cases text with
      | nil => simp [skipToToken.go]
      | cons c others =>
          have noSpace : c ≠ ' ' := fun same => settled.noSpace (by simp [same])
          have noTab : c ≠ '\t' := fun same => settled.noTab (by simp [same])
          have noComment : c ≠ '#' := fun same => settled.noComment (by simp [same])
          have noBreak : isBreak c = false := settled.noBreak c rfl
          simp [skipToToken.go, noSpace, noTab, noComment, noBreak]
  | cons c others inductionHypothesis =>
      have rest := inductionHypothesis (mark.after c)
        (fun d member => isWhite d (List.mem_cons_of_mem _ member))
        (fun member => inBlock (List.mem_cons_of_mem _ member))
      rcases isWhite c List.mem_cons_self with rfl | rfl
      · simp [skipToToken.go, rest]
      · have isBreak : isBreak '\n' = true := rfl
        have outside : scan.inFlow = false := by simp [inFlow, inBlock List.mem_cons_self]
        simp [skipToToken.go, outside, isBreak, rest]

/-- Skipping white space leads to the text behind it. -/
theorem skipToToken_eq (scan : Scan) (white : List Char) {text : List Char}
    (inBlock : '\n' ∈ white → scan.flow = [])
    (settled : IsSettled text) (isWhite : ∀ c ∈ white, c = ' ' ∨ c = '\n')
    (rest_eq : scan.cursor.rest = white ++ text) :
    scan.skipToToken =
      { scan with
        cursor := ⟨scan.cursor.mark.behind white, text⟩
        keyAllowed := scan.keyAllowed || white.contains '\n' } := by
  have noMark : (scan.cursor.mark.index == 0 && scan.cursor.peek == '\ufeff') = false := by
    rw [Bool.and_eq_false_iff]
    right
    rw [Cursor.peek, rest_eq]
    cases white with
    | nil =>
        cases text with
        | nil => rfl
        | cons c others =>
            have other : c ≠ '\ufeff' := fun same => settled.noMark (by simp [same])
            simpa using other
    | cons c others =>
        rcases isWhite c List.mem_cons_self with rfl | rfl <;> rfl
  simp only [skipToToken, noMark, Bool.false_eq_true, if_false, rest_eq]
  rw [skipToToken_go _ isWhite inBlock settled]

/-- The candidate is dropped if it is stale, which it may be if it need not become a
key. No other candidate waits around the open flow collections. -/
theorem dropStale_eq (scan : Scan) (noOuter : ∀ level ∈ scan.flow, level.outer = none)
    (free : ∀ candidate ∈ scan.candidate,
      scan.isFresh candidate = true ∨ candidate.required = false) :
    scan.dropStale = .ok { scan with candidate := scan.candidate.filter scan.isFresh } := by
  have outer : scan.flow.filterMap OpenFlow.outer = [] :=
    List.filterMap_eq_nil_iff.2 noOuter
  have noneFound : scan.candidates.find?
      (fun candidate => !scan.isFresh candidate && candidate.required) = none := by
    rw [List.find?_eq_none]
    intro candidate member
    have isCandidate : candidate ∈ scan.candidate := by
      simpa [candidates, outer] using member
    rcases free candidate isCandidate with fresh | free
    · simp [fresh]
    · simp [free]
  have kept : scan.flow.map (fun level =>
      { level with outer := level.outer.filter scan.isFresh }) = scan.flow := by
    refine (List.map_congr_left fun level member => ?_).trans (List.map_id scan.flow)
    obtain ⟨kind, outer⟩ := level
    obtain rfl : outer = none := noOuter _ member
    rfl
  simp only [dropStale, noneFound, kept]

/-- Handing out tokens loses none of them. -/
theorem release_append (scan : Scan) : scan.release.1 ++ scan.release.2.held = scan.held := by
  simp only [release]
  split <;> exact List.take_append_drop _ _

/-- The block collections that a token at a column closes. -/
def closed (columns : List Nat) (column : Nat) : List Nat :=
  columns.takeWhile (column < ·)

/-- The block collections that a token at a column is inside of. -/
def around (columns : List Nat) (column : Nat) : List Nat :=
  columns.dropWhile (column < ·)

/-- A token that is not left of the innermost collection closes none. -/
theorem closed_eq_nil {columns : List Nat} {column : Nat}
    (inside : ∀ level ∈ columns.head?, level ≤ column) : closed columns column = [] := by
  cases columns with
  | nil => rfl
  | cons level outer =>
      have notLeft : ¬column < level := Nat.not_lt.2 (inside level rfl)
      simp [closed, notLeft]

/-- A token that is not left of the innermost collection is inside of all. -/
theorem around_eq_self {columns : List Nat} {column : Nat}
    (inside : ∀ level ∈ columns.head?, level ≤ column) : around columns column = columns := by
  cases columns with
  | nil => rfl
  | cons level outer =>
      have notLeft : ¬column < level := Nat.not_lt.2 (inside level rfl)
      simp [around, notLeft]

/-- In block context, closing collections gives an end for each of them. -/
theorem unwind_eq (scan : Scan) (noFlow : scan.flow = []) (column : Nat) :
    scan.unwind (some column) =
      { scan with
        columns := around scan.columns column
        held := scan.held ++ (closed scan.columns column).map fun _ =>
          ⟨.blockEnd, scan.cursor.mark, scan.cursor.mark⟩ } := by
  simp [unwind, inFlow, noFlow, closed, around]

/-- The state behind white space, with the candidate if it is still fresh there. -/
def pastWhite (scan : Scan) (white text : List Char) : Scan :=
  { scan with
    cursor := ⟨scan.cursor.mark.behind white, text⟩
    keyAllowed := scan.keyAllowed || white.contains '\n'
    candidate := scan.candidate.filter scan.skipToToken.isFresh }

/-- Reading the next token begins behind white space. -/
theorem fetch_eq (scan : Scan) (white : List Char) {text : List Char}
    (inBlock : '\n' ∈ white → scan.flow = []) (settled : IsSettled text)
    (isWhite : ∀ c ∈ white, c = ' ' ∨ c = '\n') (rest_eq : scan.cursor.rest = white ++ text)
    (noOuter : ∀ level ∈ scan.flow, level.outer = none)
    (free : ∀ candidate ∈ scan.candidate, candidate.required = false) :
    scan.fetch = ((scan.pastWhite white text).unwind
      (some (scan.cursor.mark.behind white).column)).fetchHere := by
  have skipped := skipToToken_eq scan white inBlock settled isWhite rest_eq
  have dropped := dropStale_eq scan.skipToToken (by rw [skipped]; exact noOuter)
    (by rw [skipped]; exact fun candidate member => .inr (free candidate member))
  rw [Scan.fetch, dropped, pastWhite, skipped]
  rfl

/-- Reading the next token begins with closing the collections it is not inside of. -/
theorem Arrives.fetch {scan : Scan} {columns : List Nat} {keyAllowed : Bool} {column : Nat}
    {text : List Char} (arrives : scan.Arrives columns keyAllowed column text) :
    ∃ here : Scan, scan.fetch = here.fetchHere ∧
      here.Here (around columns column) keyAllowed column text ∧
      kinds here.held =
        kinds scan.held ++ List.replicate (closed columns column).length .blockEnd := by
  obtain ⟨white, reaches⟩ := arrives.reaches
  have fetched := fetch_eq scan white (fun _ => arrives.noFlow) arrives.settled reaches.isWhite
    reaches.rest_eq (by simp [arrives.noFlow])
    fun candidate member => (reaches.past candidate member).1
  have stale : scan.candidate.filter scan.skipToToken.isFresh = none := by
    rw [Option.filter_eq_none_iff, skipToToken_eq scan white (fun _ => arrives.noFlow)
      arrives.settled reaches.isWhite reaches.rest_eq]
    intro candidate member
    simp [isFresh, (reaches.past candidate member).2]
  rw [unwind_eq (scan.pastWhite white text) arrives.noFlow, pastWhite, stale, reaches.column_eq,
    reaches.keyAllowed_eq] at fetched
  refine ⟨_, fetched, ?_, ?_⟩
  · exact
      { columns_eq := by rw [← arrives.columns_eq]
        noFlow := arrives.noFlow
        unfinished := arrives.unfinished
        keyAllowed_eq := rfl
        noCandidate := rfl
        rest_eq := rfl
        column_eq := reaches.column_eq }
  · simp [kinds, arrives.columns_eq, List.map_const']

/-- Reading on from a state meets no error and gives tokens of some kinds. -/
def Yields (fuel : Nat) (scan : Scan) (all : List TokenKind) : Prop :=
  (run fuel scan).failure = none ∧ kinds (run fuel scan).tokens = all

/-- Reading on from a state gives the tokens that are held back and then some more. -/
def Emits (fuel : Nat) (scan : Scan) (more : List TokenKind) : Prop :=
  Yields fuel scan (kinds scan.held ++ more)

/-- What reading on gives is decided at the next token, whatever part of the tokens is
held back and whether the candidate is given up. -/
theorem Emits.of_fetch {fuel : Nat} {scan : Scan} {more : List TokenKind}
    (noOuter : ∀ level ∈ scan.flow, level.outer = none)
    (free : ∀ candidate ∈ scan.candidate, candidate.required = false)
    (unfinished : scan.finished = false)
    (reads : ∀ (candidate : Option Candidate) (taken : Nat) (held : List Token),
      (∀ other ∈ candidate, other ∈ scan.candidate) →
        ∃ next, ({ scan with candidate, taken, held } : Scan).fetch = .ok next ∧
          Yields fuel next (kinds held ++ more)) :
    Emits (fuel + 1) scan more := by
  have dropped := dropStale_eq scan noOuter fun candidate member => .inr (free candidate member)
  let fresh : Scan := { scan with candidate := scan.candidate.filter scan.isFresh }
  obtain ⟨next, fetched, noFailure, tokens⟩ :=
    reads fresh.candidate fresh.release.2.taken fresh.release.2.held
      fun other member => (Option.mem_filter_iff.1 member).1
  have handedOut : fresh.release.2.fetch = .ok next := fetched
  have goesOn : fresh.release.2.finished = false := unfinished
  have whole : fresh.release.1 ++ fresh.release.2.held = scan.held := release_append fresh
  have step : run (fuel + 1) scan =
      { run fuel next with tokens := fresh.release.1 ++ (run fuel next).tokens } := by
    rw [run, dropped]
    simp only [goesOn, handedOut, fresh]
    rfl
  refine ⟨by rw [step]; exact noFailure, ?_⟩
  rw [step]
  simp [tokens, ← whole]

/-- In block context, what reading on gives begins with the ends of the collections that
the next token is not inside of. -/
theorem Emits.of_here {fuel : Nat} {scan : Scan} {columns : List Nat} {keyAllowed : Bool}
    {column : Nat} {text : List Char} (arrives : scan.Arrives columns keyAllowed column text)
    {more : List TokenKind}
    (reads : ∀ here : Scan, here.Here (around columns column) keyAllowed column text →
      ∃ next, here.fetchHere = .ok next ∧ Yields fuel next (kinds here.held ++ more)) :
    Emits (fuel + 1) scan (List.replicate (closed columns column).length .blockEnd ++ more) := by
  obtain ⟨white, reaches⟩ := arrives.reaches
  refine Emits.of_fetch (by simp [arrives.noFlow])
    (fun candidate member => (reaches.past candidate member).1) arrives.unfinished
    fun candidate taken held kept => ?_
  have stillArrives : ({ scan with candidate, taken, held } : Scan).Arrives columns keyAllowed
      column text :=
    ⟨arrives.columns_eq, arrives.noFlow, arrives.unfinished, arrives.settled, white,
      reaches.isWhite, reaches.rest_eq, reaches.column_eq, reaches.keyAllowed_eq,
      fun other member => reaches.past other (kept other member)⟩
  obtain ⟨here, fetched, isHere, heldHere⟩ := stillArrives.fetch
  obtain ⟨next, read, yields⟩ := reads here isHere
  refine ⟨next, by rw [fetched, read], ?_⟩
  rwa [heldHere, List.append_assoc] at yields

/-- A token that closes no collection decides what reading on gives. -/
theorem Emits.of_inside {fuel : Nat} {scan : Scan} {columns : List Nat} {keyAllowed : Bool}
    {column : Nat} {text : List Char} (arrives : scan.Arrives columns keyAllowed column text)
    (inside : ∀ level ∈ columns.head?, level ≤ column) {more : List TokenKind}
    (reads : ∀ here : Scan, here.Here columns keyAllowed column text →
      ∃ next, here.fetchHere = .ok next ∧ Yields fuel next (kinds here.held ++ more)) :
    Emits (fuel + 1) scan more := by
  have emits := Emits.of_here arrives (by
    rw [around_eq_self inside]
    exact reads)
  rw [closed_eq_nil inside] at emits
  exact emits

/-- What is added to the tokens held back comes out in front of what follows. -/
theorem Emits.yields {fuel : Nat} {scan next : Scan} {more : List TokenKind}
    (emits : Emits fuel next more) (new : List TokenKind)
    (held : kinds next.held = kinds scan.held ++ new) :
    Yields fuel next (kinds scan.held ++ (new ++ more)) := by
  rw [← List.append_assoc, ← held]
  exact emits

end Scan

end Roster.Yaml
