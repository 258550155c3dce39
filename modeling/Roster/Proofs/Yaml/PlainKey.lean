import Roster.Proofs.Yaml.BlockStream

/-!
# Plain keys

A plain text with a colon behind it is a key of a block mapping. When the text is
read nobody knows that yet: it is held back as a candidate, and at the colon the
key token is put in front of it, together with the start of the mapping if the key
is its first one.
-/

namespace Roster.Yaml

namespace Scan

variable {scan : Scan} {columns : List Nat} {keyAllowed : Bool} {column : Nat}

/-- A state right behind a token, in block context, where neither a key may begin
nor a candidate is left. -/
structure Behind (scan : Scan) (columns : List Nat) (column : Nat) (rest : List Char) : Prop where
  columns_eq : scan.columns = columns
  noFlow : scan.flow = []
  unfinished : scan.finished = false
  noKey : scan.keyAllowed = false
  noCandidate : scan.candidate = none
  rest_eq : scan.cursor.rest = rest
  column_eq : scan.cursor.column = column

/-- Behind a line break the next line begins. -/
theorem Behind.arrives_line {count : Nat} {text : List Char}
    (behind : scan.Behind columns column ('\n' :: List.replicate count ' ' ++ text))
    (settled : IsSettled text) : scan.Arrives columns true count text := by
  refine ⟨behind.columns_eq, behind.noFlow, behind.unfinished, settled,
    '\n' :: List.replicate count ' ', isWhite_newline count, behind.rest_eq, ?_, by simp, ?_⟩
  · exact Mark.column_behind_newline scan.cursor.mark [] count
  · simp [behind.noCandidate]

/-- Behind a space in the same line no key may begin. -/
theorem Behind.arrives_space {text : List Char} (behind : scan.Behind columns column (' ' :: text))
    (settled : IsSettled text) : scan.Arrives columns false (column + 1) text := by
  refine ⟨behind.columns_eq, behind.noFlow, behind.unfinished, settled, [' '], by simp,
    behind.rest_eq, ?_, by simp [behind.noKey], by simp [behind.noCandidate]⟩
  rw [← behind.column_eq]
  exact Mark.column_after_space scan.cursor.mark

/-- Behind a token with nothing but white space left, the end is reached. -/
theorem Behind.atEnd {rest : List Char} (behind : scan.Behind columns column rest)
    (isWhite : ∀ c ∈ rest, c = ' ' ∨ c = '\n') : scan.AtEnd columns :=
  ⟨behind.columns_eq, behind.noFlow, behind.unfinished, behind.rest_eq ▸ isWhite,
    by simp [behind.noCandidate]⟩

/-- A candidate that is near enough is kept. -/
theorem dropStale_of_fresh (scan : Scan) (noFlow : scan.flow = []) {candidate : Candidate}
    (isCandidate : scan.candidate = some candidate) (fresh : scan.isFresh candidate = true) :
    scan.dropStale = .ok scan := by
  have dropped := dropStale_eq scan (by simp [noFlow]) fun other member => by
    obtain rfl : candidate = other := Option.some.inj (isCandidate ▸ member)
    exact .inl fresh
  rw [isCandidate, Option.filter_some, if_pos fresh, ← isCandidate] at dropped
  exact dropped

/-- The candidate that a token at the present place makes where a key may begin. -/
def asKey (scan : Scan) : Candidate :=
  ⟨scan.count, scan.columns.head? == some scan.cursor.column, scan.cursor.mark⟩

/-- The state at the colon behind a plain text that may be a key. -/
def atColon (scan : Scan) (word rest : List Char) : Scan :=
  scan.behindContent (.scalar (String.ofList word)) (scan.cursor.mark.behind word)
    ⟨scan.cursor.mark.behind word, ':' :: rest⟩ false

/-- The state at the colon when all tokens in front of the text are handed out. -/
def waiting (scan : Scan) (word rest : List Char) : Scan :=
  { scan.atColon word rest with
    candidate := some scan.asKey
    taken := scan.count
    held := [⟨.scalar (String.ofList word), scan.cursor.mark, scan.cursor.mark.behind word⟩] }

/-- A plain text ends at a colon that is set off. -/
theorem Here.fetchHere_atColon {word rest : List Char} (begins : BeginsPlain word)
    (setOff : endsIndicator (rest.headD endOfText) = true)
    (here : scan.Here columns keyAllowed column (word ++ ':' :: rest)) :
    scan.fetchHere = .ok (scan.atColon word rest) := by
  have inBlock : scan.inFlow = false := by simp [inFlow, here.noFlow]
  have stops : continuesPlain scan.version scan.inFlow ':' (rest.headD endOfText) = false := by
    rw [continuesPlain, setOff]
    rfl
  have read := Token.plainScalar_stop
    { version := scan.version, inFlow := scan.inFlow, least := scan.least }
    scan.cursor.mark begins.nonempty begins.noComment
    (by rw [inBlock]; exact begins.continues scan.version (.inl rfl))
    (Token.stopsPlain_cons stops) (by simp) rfl
  rw [← here.cursor_eq] at read
  rw [here.fetchHere_plain begins (by decide) (by decide), fetchPlain, here.saveCandidate]
  simp only [read]
  rfl

/-- A text that may be a key is held back, and all tokens in front of it are handed
out. -/
theorem Here.release_atColon {text : List Char} (here : scan.Here columns true column text)
    (word rest : List Char) :
    (scan.atColon word rest).release = (scan.held, scan.waiting word rest) := by
  have isCandidate : (scan.atColon word rest).candidates = [scan.asKey] := by
    simp [candidates, atColon, behindContent, push, here.noFlow, offered, here.keyAllowed_eq, asKey]
  have offered : scan.offered = some scan.asKey := by
    simp [Scan.offered, here.keyAllowed_eq, asKey]
  have ready : scan.asKey.position - (scan.atColon word rest).taken = scan.held.length := by
    simp [asKey, count, atColon, behindContent, push]
  simp only [release, isCandidate, List.map_cons, List.map_nil, List.min?_singleton, ready]
  simp [waiting, atColon, behindContent, push, offered, count]

/-- A candidate is fresh at the colon behind it if it is not too long. -/
theorem isFresh_asKey {word : List Char} (noNewline : '\n' ∉ word) (short : word.length ≤ 1024)
    (state : Scan) (mark_eq : state.cursor.mark = scan.cursor.mark.behind word) :
    state.isFresh scan.asKey = true := by
  have line : (scan.cursor.mark.behind word).line = scan.cursor.mark.line := by
    rw [Mark.line_behind, List.count_eq_zero.2 noNewline, Nat.add_zero]
  have index := Mark.index_behind scan.cursor.mark word
  simp [isFresh, asKey, mark_eq, line, index, short]

/-- A colon that is set off is the indicator of a value. -/
theorem fetchHere_colon (scan : Scan) {rest : List Char} (noFlow : scan.flow = [])
    (rest_eq : scan.cursor.rest = ':' :: rest)
    (setOff : endsIndicator (rest.headD endOfText) = true) :
    scan.fetchHere = scan.fetchValue := by
  have second : scan.cursor.peekAt 1 = rest.headD endOfText := by
    rw [Cursor.peekAt, rest_eq]
    cases rest <;> rfl
  have value : scan.atValue = true := by rw [atValue, noFlow, second]; exact setOff
  simp [fetchHere, rest_eq, Cursor.peek_of_rest rest_eq, Cursor.atMarker_of_rest rest_eq, value]

/-- At the colon, the candidate becomes a key. -/
theorem Here.fetch_waiting {text word rest : List Char} (here : scan.Here columns true column text)
    (noNewline : '\n' ∉ word) (noMark : '\ufeff' ∉ word) (short : word.length ≤ 1024)
    (setOff : endsIndicator (rest.headD endOfText) = true)
    (inside : ∀ level ∈ columns.head?, level ≤ column) :
    (scan.waiting word rest).fetch =
      .ok (((scan.waiting word rest).confirm scan.asKey).pushIndicator .value 1) := by
  have fresh := isFresh_asKey noNewline short (scan.waiting word rest) rfl
  have skipped := skipToToken_eq (scan.waiting word rest) [] (by simp)
    (isSettled_sign (by decide) _)
    (by simp) rfl
  have same : (scan.waiting word rest).skipToToken = scan.waiting word rest := skipped
  have dropped := dropStale_of_fresh (scan.waiting word rest) here.noFlow rfl fresh
  have inside' : ∀ level ∈ (scan.waiting word rest).columns.head?,
      level ≤ (scan.waiting word rest).cursor.column := by
    intro level isHead
    have before := inside level (here.columns_eq ▸ isHead)
    have behind := Mark.column_behind_word scan.cursor.mark noNewline noMark
    have column_eq := here.column_eq
    simp only [waiting, atColon, behindContent, Cursor.column] at column_eq ⊢
    omega
  have unwound := unwind_eq (scan.waiting word rest) here.noFlow
    (scan.waiting word rest).cursor.column
  rw [closed_eq_nil inside', around_eq_self inside', List.map_nil, List.append_nil] at unwound
  have unwound' : (scan.waiting word rest).unwind
      (some (scan.waiting word rest).cursor.column) = scan.waiting word rest := unwound
  rw [Scan.fetch, same, dropped]
  simp only [bind, Except.bind, unwound']
  rw [fetchHere_colon (scan.waiting word rest) here.noFlow rfl setOff, fetchValue]
  rfl

/-- The collections that are open behind a key at a column. -/
def opened (columns : List Nat) (column : Nat) : List Nat :=
  if columns.head?.all (· < column) then column :: columns else columns

/-- What a key gives, with the start of the mapping in front if it is the first. -/
def keyKinds (columns : List Nat) (column : Nat) (word : List Char) : List TokenKind :=
  (if columns.head?.all (· < column) then [.blockMappingStart] else []) ++
    [.key, .scalar (String.ofList word), .value]

/-- The key token, and the start of a mapping if the key is its first one, are put
in front of what is held back. -/
theorem Here.confirm_waiting {text word rest : List Char}
    (here : scan.Here columns true column text) :
    ∃ held, (scan.waiting word rest).confirm scan.asKey =
        { scan.waiting word rest with
          columns := opened columns column, candidate := none, keyAllowed := false, held } ∧
      kinds held ++ [.value] = keyKinds columns column word := by
  have inBlock : (scan.waiting word rest).inFlow = false := by
    simp [inFlow, waiting, atColon, behindContent, push, here.noFlow]
  have column_eq : scan.asKey.mark.column = column := here.column_eq
  have columns_eq : (scan.waiting word rest).columns = columns := here.columns_eq
  have deeper : (scan.waiting word rest).isDeeper column = columns.head?.all (· < column) := by
    rw [isDeeper, columns_eq]
  have position : scan.asKey.position - (scan.waiting word rest).taken = 0 := by
    simp [asKey, waiting]
  rw [confirm, column_eq, inBlock, deeper, insertAt, insertAt, position]
  simp only [opened, keyKinds, columns_eq, Bool.not_false, Bool.true_and]
  split
  · exact ⟨_, rfl, rfl⟩
  · exact ⟨_, rfl, rfl⟩

/-- At the colon behind a plain text all tokens in front of the text are handed out, and
the text becomes a key. -/
theorem Here.run_atColon {word rest : List Char} (begins : BeginsPlain word)
    (short : word.length ≤ 1024) (setOff : endsIndicator (rest.headD endOfText) = true)
    (inside : ∀ level ∈ columns.head?, level ≤ column)
    (here : scan.Here columns true column (word ++ ':' :: rest)) :
    ∃ next : Scan, next.Behind (opened columns column) (column + word.length + 1) rest ∧
      kinds next.held = keyKinds columns column word ∧
      ∀ fuel, run (fuel + 1) (scan.atColon word rest) =
        { run fuel next with tokens := scan.held ++ (run fuel next).tokens } := by
  have noNewline : '\n' ∉ word := fun member => by
    have visible := begins.unbroken _ member
    cases visible
  obtain ⟨held, confirmed, heldKinds⟩ := here.confirm_waiting
  let keyed : Scan :=
    { scan.waiting word rest with
      columns := opened columns column, candidate := none, keyAllowed := false, held }
  let next := keyed.pushIndicator .value 1
  have fetched : (scan.waiting word rest).fetch = .ok next := by
    rw [here.fetch_waiting noNewline begins.noMark short setOff inside, confirmed]
  have dropped : (scan.atColon word rest).dropStale = .ok (scan.atColon word rest) :=
    dropStale_of_fresh _ here.noFlow
      (show scan.offered = some scan.asKey by simp [offered, here.keyAllowed_eq, asKey])
      (isFresh_asKey noNewline short _ rfl)
  have unfinished : (scan.waiting word rest).finished = false := here.unfinished
  have column_eq : next.cursor.column = column + word.length + 1 := by
    have behind := Mark.column_behind_word scan.cursor.mark noNewline begins.noMark
    have before : scan.cursor.mark.column = column := here.column_eq
    have after : next.cursor.column = (scan.cursor.mark.behind word).column + 1 := rfl
    rw [after, behind, before]
  refine ⟨next, ⟨rfl, here.noFlow, here.unfinished, rfl, rfl, rfl, column_eq⟩, ?_, fun fuel => ?_⟩
  · rw [← heldKinds]
    exact kinds_append held _
  · simp only [run, dropped, here.release_atColon word rest, unfinished, fetched]
    rfl

/-- What a column is inside of is not right of it. -/
theorem head?_around_le (columns : List Nat) (column : Nat) :
    ∀ level ∈ (around columns column).head?, level ≤ column := by
  intro level isHead
  have notLeft := List.head?_dropWhile_not (column < ·) columns
  rw [around] at isHead
  rw [isHead] at notLeft
  simpa using notLeft

/-- A plain text with a colon behind it gives a key, behind the ends of the collections that
it is not inside of. -/
theorem Emits.closingKey {fuel : Nat} {word rest : List Char} {more : List TokenKind}
    (isPlain : IsPlain word) (short : word.length ≤ 1024)
    (setOff : endsIndicator (rest.headD endOfText) = true)
    (arrives : scan.Arrives columns true column (word ++ ':' :: rest))
    (onward : ∀ next : Scan,
      next.Behind (opened (around columns column) column) (column + word.length + 1) rest →
        Emits fuel next more) :
    Emits (fuel + 2) scan (List.replicate (closed columns column).length .blockEnd ++
      (keyKinds (around columns column) column word ++ more)) := by
  refine Emits.of_here arrives fun here isHere => ?_
  obtain ⟨next, behind, heldNext, step⟩ := isHere.run_atColon isPlain.beginsPlain short setOff
    (head?_around_le columns column)
  obtain ⟨noFailure, tokens⟩ := onward next behind
  refine ⟨_, isHere.fetchHere_atColon isPlain.beginsPlain setOff, ?_⟩
  rw [Yields, step]
  exact ⟨noFailure, by rw [kinds_append, tokens, heldNext]⟩

/-- A plain text with a colon behind it gives a key. -/
theorem Emits.key {fuel : Nat} {word rest : List Char} {more : List TokenKind}
    (isPlain : IsPlain word) (short : word.length ≤ 1024)
    (setOff : endsIndicator (rest.headD endOfText) = true)
    (inside : ∀ level ∈ columns.head?, level ≤ column)
    (arrives : scan.Arrives columns true column (word ++ ':' :: rest))
    (onward : ∀ next : Scan, next.Behind (opened columns column) (column + word.length + 1) rest →
      Emits fuel next more) :
    Emits (fuel + 2) scan (keyKinds columns column word ++ more) := by
  have same := around_eq_self inside
  have emits := Emits.closingKey isPlain short setOff arrives (by rw [same]; exact onward)
  rwa [closed_eq_nil inside, same] at emits

end Scan

end Roster.Yaml
