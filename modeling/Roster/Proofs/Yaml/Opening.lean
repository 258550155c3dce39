import Roster.Proofs.Yaml.SequenceDocument

/-!
# How a token stream opens

Where only the beginning of a text is known, only the first tokens of its stream are
known, and perhaps not even those, for an error further on may come before tokens that
are held back. `Leads` takes one state of the stream to a later one, with the tokens that
are read in between; `Opens` says of a stream that it begins with tokens of some kinds
unless an error comes first.
-/

namespace Roster.Yaml

/-- Tokens begin with some kinds, or an error comes before all of these are met. -/
def Opens (tokens : List Token) (failure : Option Error) (front : List TokenKind) : Prop :=
  front <+: kinds tokens ∨ (failure.isSome = true ∧ kinds tokens <+: front)

/-- Tokens in front of others. -/
theorem Opens.append {tokens : List Token} {failure : Option Error} {front : List TokenKind}
    (opens : Opens tokens failure front) (ready : List Token) :
    Opens (ready ++ tokens) failure (kinds ready ++ front) := by
  rw [Opens, kinds_append]
  exact opens.imp (List.prefix_append_right_inj _).2
    (And.imp_right (List.prefix_append_right_inj _).2)

/-- Fewer kinds may be asked for. -/
theorem Opens.front {tokens : List Token} {failure : Option Error} {front more : List TokenKind}
    (opens : Opens tokens failure (front ++ more)) : Opens tokens failure front := by
  rcases opens with whole | ⟨failed, part⟩
  · exact .inl ((List.prefix_append front more).trans whole)
  · rcases List.prefix_or_prefix_of_prefix part (List.prefix_append front more) with
      part | whole
    · exact .inr ⟨failed, part⟩
    · exact .inl whole

namespace Scan

variable {scan : Scan} {columns : List Nat} {keyAllowed : Bool} {column : Nat}

/-- What reading on from a state gives if the next token is read from another one, behind
some tokens that are handed out. -/
def readOn (fuel : Nat) (ready : List Token) : Except Error Scan → TokenStream
  | .error failure => { tokens := ready, failure := some failure }
  | .ok next => { run fuel next with tokens := ready ++ (run fuel next).tokens }

/-- A token that closes no collection is read next, behind some of the tokens that are held
back. -/
theorem Arrives.run_eq {text : List Char} (arrives : scan.Arrives columns keyAllowed column text)
    (inside : ∀ level ∈ columns.head?, level ≤ column) :
    ∃ (here : Scan) (ready : List Token), here.Here columns keyAllowed column text ∧
      kinds ready ++ kinds here.held = kinds scan.held ∧
      ∀ fuel, run (fuel + 1) scan = readOn fuel ready here.fetchHere := by
  obtain ⟨white, reaches⟩ := arrives.reaches
  have dropped := dropStale_eq scan (by simp [arrives.noFlow])
    fun candidate member => .inr (reaches.past candidate member).1
  let fresh : Scan := { scan with candidate := scan.candidate.filter scan.isFresh }
  have stillArrives : fresh.release.2.Arrives columns keyAllowed column text :=
    ⟨arrives.columns_eq, arrives.noFlow, arrives.unfinished, arrives.settled, white,
      reaches.isWhite, reaches.rest_eq, reaches.column_eq, reaches.keyAllowed_eq,
      fun other member => reaches.past other (Option.mem_filter_iff.1 member).1⟩
  have goesOn : fresh.release.2.finished = false := arrives.unfinished
  have whole : fresh.release.1 ++ fresh.release.2.held = scan.held := release_append fresh
  obtain ⟨here, fetched, isHere, heldHere⟩ := stillArrives.fetch
  rw [around_eq_self inside] at isHere
  rw [closed_eq_nil inside, List.length_nil, List.replicate_zero, List.append_nil] at heldHere
  refine ⟨here, fresh.release.1, isHere, by rw [heldHere, ← kinds_append, whole], fun fuel => ?_⟩
  rw [run, dropped, ← fetched]
  simp only [goesOn, fresh, Bool.false_eq_true, if_false]
  cases fresh.release.2.fetch <;> rfl

/-- Reading a number of tokens takes a state to another one and gives tokens of some kinds
behind those that are held back; of all these some are handed out. -/
def Leads (count : Nat) (scan : Scan) (new : List TokenKind) (next : Scan) : Prop :=
  ∃ ready : List Token, kinds ready ++ kinds next.held = kinds scan.held ++ new ∧
    ∀ fuel, run (fuel + count) scan =
      { run fuel next with tokens := ready ++ (run fuel next).tokens }

theorem Leads.trans {count further : Nat} {middle next : Scan} {new others : List TokenKind}
    (leads : Leads count scan new middle) (onward : Leads further middle others next) :
    Leads (further + count) scan (new ++ others) next := by
  obtain ⟨ready, held, ran⟩ := leads
  obtain ⟨readyOnward, heldOnward, ranOnward⟩ := onward
  refine ⟨ready ++ readyOnward, ?_, fun fuel => ?_⟩
  · rw [kinds_append, List.append_assoc, heldOnward, ← List.append_assoc, held, List.append_assoc]
  · rw [← Nat.add_assoc, ran, ranOnward, List.append_assoc]

/-- How a stream opens further on is how it opens. -/
theorem Leads.opens {count fuel : Nat} {next : Scan} {new more : List TokenKind}
    (leads : Leads count scan new next)
    (opens : Opens (run fuel next).tokens (run fuel next).failure (kinds next.held ++ more)) :
    Opens (run (fuel + count) scan).tokens (run (fuel + count) scan).failure
      (kinds scan.held ++ (new ++ more)) := by
  obtain ⟨ready, held, ran⟩ := leads
  rw [ran, ← List.append_assoc, ← held, List.append_assoc]
  exact opens.append ready

/-- A token that closes no collection leads to the state behind it. -/
theorem Leads.of_inside {text : List Char} (arrives : scan.Arrives columns keyAllowed column text)
    (inside : ∀ level ∈ columns.head?, level ≤ column) {new : List TokenKind}
    {reached : Scan → Prop}
    (reads : ∀ here : Scan, here.Here columns keyAllowed column text →
      ∃ next, here.fetchHere = .ok next ∧ kinds next.held = kinds here.held ++ new ∧
        reached next) :
    ∃ next, Leads 1 scan new next ∧ reached next := by
  obtain ⟨here, ready, isHere, held, ran⟩ := arrives.run_eq inside
  obtain ⟨next, fetched, heldNext, isReached⟩ := reads here isHere
  refine ⟨next, ⟨ready, ?_, fun fuel => ?_⟩, isReached⟩
  · rw [heldNext, ← List.append_assoc, held]
  · rw [ran, fetched, readOn]

/-- A dash at the column of the innermost sequence is an entry of it. -/
theorem Leads.entry {outer : List Nat} {text : List Char} (settled : IsSettled text)
    (arrives : scan.Arrives (column :: outer) true column ('-' :: ' ' :: text)) :
    ∃ next, Leads 1 scan [.blockEntry] next ∧
      next.Arrives (column :: outer) true (column + 2) text := by
  refine Leads.of_inside arrives
    (fun other isHead => Option.some.inj isHead ▸ Nat.le_refl _) fun here isHere => ?_
  have same : here.openBlock column .blockSequenceStart = here := by
    simp [openBlock, isDeeper, isHere.columns_eq]
  have entry := isHere.entry settled
  rwa [same, isHere.columns_eq] at entry

/-- A dash deeper than the innermost collection opens a sequence. -/
theorem Leads.firstEntry {text : List Char} (settled : IsSettled text)
    (deeper : ∀ level ∈ columns.head?, level < column)
    (arrives : scan.Arrives columns true column ('-' :: ' ' :: text)) :
    ∃ next, Leads 1 scan [.blockSequenceStart, .blockEntry] next ∧
      next.Arrives (column :: columns) true (column + 2) text := by
  refine Leads.of_inside arrives
    (fun level isHead => Nat.le_of_lt (deeper level isHead)) fun here isHere => ?_
  have isDeeper : here.isDeeper column = true := by
    rw [isDeeper, isHere.columns_eq]
    simpa [Option.all_eq_true] using deeper
  have entry := isHere.entry settled
  simpa [openBlock, isDeeper, isHere.columns_eq, push, kinds] using entry

/-- A written scalar on a line of its own leads to the next line. -/
theorem Leads.written {level : Nat} {outer : List Nat} {form text rest : List Char} {count : Nat}
    (isWritten : Written form text) (deeper : level < column) (shallow : count ≤ level)
    (settled : IsSettled rest)
    (noMarker : ∀ mark, Cursor.atDocumentMarker ⟨mark, List.replicate count ' ' ++ rest⟩ = false)
    (arrives : scan.Arrives (level :: outer) keyAllowed column
      (form ++ '\n' :: (List.replicate count ' ' ++ rest))) :
    ∃ next, Leads 1 scan [.scalar (String.ofList text)] next ∧
      next.Arrives (level :: outer) true count rest :=
  Leads.of_inside arrives
    (fun _ isHead => Option.some.inj isHead ▸ Nat.le_of_lt deeper) fun _ isHere =>
      isHere.written isWritten deeper shallow settled noMarker

/-- A plain text with a colon behind it leads behind the colon, and is a key. -/
theorem Leads.key {word rest : List Char} (begins : BeginsPlain word) (short : word.length ≤ 1024)
    (setOff : endsIndicator (rest.headD endOfText) = true)
    (inside : ∀ level ∈ columns.head?, level ≤ column)
    (arrives : scan.Arrives columns true column (word ++ ':' :: rest)) :
    ∃ next, Leads 2 scan (keyKinds columns column word) next ∧
      next.Behind (opened columns column) (column + word.length + 1) rest := by
  obtain ⟨here, ready, isHere, held, ran⟩ := arrives.run_eq inside
  obtain ⟨next, behind, heldNext, step⟩ := isHere.run_atColon begins short setOff inside
  refine ⟨next, ⟨ready ++ here.held, ?_, fun fuel => ?_⟩, behind⟩
  · rw [kinds_append, held, heldNext]
  · rw [ran, isHere.fetchHere_atColon begins setOff, readOn, step, List.append_assoc]

/-- Tokens that are held back while no key can be put in front of them come out. -/
theorem opens_held (fuel : Nat) (noFlow : scan.flow = [])
    (stale : ∀ candidate ∈ scan.candidate,
      scan.isFresh candidate = false ∧ candidate.required = false) :
    Opens (run (fuel + 1) scan).tokens (run (fuel + 1) scan).failure (kinds scan.held) := by
  have dropped := dropStale_eq scan (by simp [noFlow]) fun candidate member =>
    .inr (stale candidate member).2
  have gone : scan.candidate.filter scan.isFresh = none :=
    Option.filter_eq_none_iff.2 fun candidate member => by simp [(stale candidate member).1]
  let fresh : Scan := { scan with candidate := none }
  have ready : kinds fresh.release.1 = kinds scan.held := by
    simp [release, candidates, fresh, noFlow]
  rw [← ready, run, dropped, gone]
  dsimp only
  split
  · exact .inl List.prefix_rfl
  · split
    · exact .inl List.prefix_rfl
    · rw [Opens, kinds_append]
      exact .inl (List.prefix_append _ _)

section Entries

variable {outer : List Nat} {forms texts : List (List Char)} {tail : List Char}

/-- The entries of a block sequence at a column, up to the dash of a further one. -/
def furtherEntry (column : Nat) (forms : List (List Char)) (tail : List Char) : List Char :=
  entryLines column forms ++ '\n' :: (List.replicate column ' ' ++ '-' :: ' ' :: tail)

theorem furtherEntry_cons (column : Nat) (form : List Char) (forms : List (List Char))
    (tail : List Char) :
    furtherEntry column (form :: forms) tail =
      '\n' :: (List.replicate column ' ' ++
        '-' :: ' ' :: (form ++ furtherEntry column forms tail)) := by
  simp [furtherEntry, entryLines_cons]

/-- The entries of a block sequence behind the dash of one lead to a further entry. -/
theorem Leads.entries {form text : List Char} (isWritten : Written form text)
    (areWritten : List.Forall₂ Written forms texts) (settled : IsSettled tail)
    (arrives : scan.Arrives (column :: outer) true (column + 2)
      (form ++ furtherEntry column forms tail)) :
    ∃ next, Leads (2 + 2 * forms.length) scan
        (.scalar (String.ofList text) :: (entryKinds texts ++ [.blockEntry])) next ∧
      next.Arrives (column :: outer) true (column + 2) tail := by
  -- In front of a dash no document marker stands, whatever the column.
  have noMarker : ∀ (rest : List Char) (mark : Mark), Cursor.atDocumentMarker
      ⟨mark, List.replicate column ' ' ++ '-' :: ' ' :: rest⟩ = false := by
    intro rest mark
    cases column <;> rfl
  induction areWritten generalizing scan form text with
  | nil =>
      obtain ⟨dash, toDash, atDash⟩ := Leads.written isWritten (by omega) (Nat.le_refl _)
        (isSettled_sign (by decide) _) (noMarker tail) arrives
      obtain ⟨next, toNext, atNext⟩ := Leads.entry settled atDash
      exact ⟨next, toDash.trans toNext, atNext⟩
  | @cons nextForm nextText forms texts isNext areForms inductionHypothesis =>
      rw [furtherEntry_cons] at arrives
      obtain ⟨dash, toDash, atDash⟩ := Leads.written isWritten (by omega) (Nat.le_refl _)
        (isSettled_sign (by decide) _) (noMarker _) arrives
      obtain ⟨item, toItem, atItem⟩ := Leads.entry (isNext.isSettled _) atDash
      obtain ⟨next, toNext, atNext⟩ := inductionHypothesis isNext atItem
      refine ⟨next, ?_, atNext⟩
      rw [List.length_cons,
        show 2 + 2 * (forms.length + 1) = 2 + 2 * forms.length + (1 + 1) by omega]
      exact (toDash.trans toItem).trans toNext

/-- Behind a key, the entries of a block sequence that is indented lead to a further one. -/
theorem Leads.indented {place : Nat} {colon : Scan} (deeper : 0 < column)
    (areWritten : List.Forall₂ Written forms texts) (settled : IsSettled tail)
    (behind : colon.Behind [0] place (furtherEntry column forms tail)) :
    ∃ next, Leads (1 + 2 * forms.length) colon
        (.blockSequenceStart :: (entryKinds texts ++ [.blockEntry])) next ∧
      next.Arrives [column, 0] true (column + 2) tail := by
  cases areWritten with
  | nil =>
      have arrives := behind.arrives_line (isSettled_sign (by decide) _)
      exact Leads.firstEntry settled (by simpa using deeper) arrives
  | @cons _ _ forms _ isForm areForms =>
      rw [furtherEntry_cons] at behind
      have arrives := behind.arrives_line (isSettled_sign (by decide) _)
      obtain ⟨item, toItem, atItem⟩ :=
        Leads.firstEntry (isForm.isSettled _) (by simpa using deeper) arrives
      obtain ⟨next, toNext, atNext⟩ := Leads.entries isForm areForms settled atItem
      refine ⟨next, ?_, atNext⟩
      rw [List.length_cons, show 1 + 2 * (forms.length + 1) = 2 + 2 * forms.length + 1 by omega]
      exact toItem.trans toNext

end Entries

end Scan

/-- The first tokens of a document that is a mapping with one key and a block sequence as
its value, up to a further entry of the sequence. -/
def sequenceFront (key : List Char) (texts : List (List Char)) : List TokenKind :=
  .streamStart :: .blockMappingStart :: .key :: .scalar (String.ofList key) :: .value ::
    .blockSequenceStart :: (Scan.entryKinds texts ++ [.blockEntry])

/-- The stream of a document whose text is known up to an entry of its sequence opens with
the tokens in front of that entry, and then like the stream from there on. -/
theorem opens_tokenize (version : Version) {key : List Char} (isPlain : IsPlain key)
    (short : key.length ≤ 1024) {column : Nat} (deeper : 0 < column)
    {forms texts : List (List Char)} (areWritten : List.Forall₂ Written forms texts)
    {tail : List Char} (settled : IsSettled tail) {property : TokenKind → Prop}
    (onward : ∀ (fuel : Nat) (item : Scan),
      item.Arrives [column, 0] true (column + 2) tail → ∃ kind, property kind ∧
        Opens (Scan.run (fuel + 3) item).tokens (Scan.run (fuel + 3) item).failure
          (kinds item.held ++ [kind])) :
    ∃ kind, property kind ∧
      Opens (tokenize version (key ++ ':' :: Scan.furtherEntry column forms tail)).tokens
        (tokenize version (key ++ ':' :: Scan.furtherEntry column forms tail)).failure
        (sequenceFront key texts ++ [kind]) := by
  have settledKey := (Written.plain isPlain).isSettled (':' :: Scan.furtherEntry column forms tail)
  have setOff : endsIndicator ((Scan.furtherEntry column forms tail).headD endOfText) = true := by
    cases forms with
    | nil => rfl
    | cons form others =>
        rw [Scan.furtherEntry_cons]
        rfl
  obtain ⟨colon, toColon, behind⟩ := Scan.Leads.key isPlain.beginsPlain short setOff (by simp)
    (Scan.start_arrives version settledKey)
  obtain ⟨item, toItem, arrives⟩ := Scan.Leads.indented deeper areWritten settled behind
  have room := length_entryLines column forms
  have enough : 3 + (1 + 2 * forms.length + 2) ≤
      (key ++ ':' :: Scan.furtherEntry column forms tail).length + 2 := by
    simp only [Scan.furtherEntry, List.length_append, List.length_cons, List.length_replicate]
    omega
  obtain ⟨spare, fuel⟩ := Nat.exists_eq_add_of_le' enough
  obtain ⟨kind, holds, opens⟩ := onward spare item arrives
  refine ⟨kind, holds, ?_⟩
  have whole := (toColon.trans toItem).opens opens
  rw [tokenize, fuel, ← Nat.add_assoc]
  simpa [Scan.start, kinds, Scan.keyKinds, sequenceFront] using whole

end Roster.Yaml
