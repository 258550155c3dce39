import Roster.Proofs.Yaml.SequenceDocument

/-!
# Documents of several entries

A block mapping at the first column, whose entries begin with plain keys. The values behind
the colons may be of any kind, as long as each of them is known to end in front of the next
line at that column. What a value leaves open is closed by the key of the next entry, or at
the end of the text, so an entry is described by what the stream gives up to there.
-/

namespace Roster.Yaml

namespace Scan

variable {scan : Scan}

/-- A token at the first column closes all collections but the outermost one. -/
theorem closed_append_zero {inner : List Nat} (deeper : ∀ level ∈ inner, 0 < level) :
    closed (inner ++ [0]) 0 = inner := by
  rw [closed, List.takeWhile_append_of_pos
    fun level member => decide_eq_true (deeper level member)]
  simp

/-- A token at the first column stays inside the outermost collection. -/
theorem around_append_zero {inner : List Nat} (deeper : ∀ level ∈ inner, 0 < level) :
    around (inner ++ [0]) 0 = [0] := by
  have leavesNone : inner.dropWhile (decide <| 0 < ·) = [] :=
    List.dropWhile_eq_nil_iff.2 fun level member => decide_eq_true (deeper level member)
  rw [around, List.dropWhile_append, leavesNone]
  rfl

/-- Behind a colon, a value in front of a line at the first column gives tokens of some kinds,
the last of which end the collections that it leaves open. It takes so many steps at most. -/
structure GivesValue (steps : Nat) (written : List Char) (spelled : List TokenKind) : Prop where
  enough : steps ≤ written.length
  emits : ∀ {fuel place : Nat} {colon : Scan} {rest : List Char} {more : List TokenKind},
    IsSettled rest → (∀ mark, Cursor.atDocumentMarker ⟨mark, rest⟩ = false) →
      colon.Behind [0] place (written ++ rest) →
        (∀ (next : Scan) (inner : List Nat), (∀ level ∈ inner, 0 < level) →
          next.Arrives (inner ++ [0]) true 0 rest →
            Emits fuel next (List.replicate inner.length .blockEnd ++ more)) →
          Emits (fuel + steps) colon (spelled ++ more)

/-- A scalar in the line of its key gives its text. -/
theorem givesValue_line {form text : List Char} (isWritten : Written form text) :
    GivesValue 1 (' ' :: (form ++ ['\n'])) [.scalar (String.ofList text)] where
  enough := by simp
  emits := by
    intro fuel place colon rest more settled noMarker behind onward
    rw [List.cons_append, List.append_assoc] at behind
    exact Emits.written isWritten (Nat.succ_pos place) (Nat.le_refl 0) settled
      noMarker (behind.arrives_space (isWritten.isSettled _)) fun next arrives =>
        onward next [] (by simp) arrives

/-- An indented block sequence gives its start, its entries and its end. -/
theorem givesValue_sequence {column : Nat} (deeper : 0 < column) {form text : List Char}
    {forms texts : List (List Char)} (isWritten : Written form text)
    (areWritten : List.Forall₂ Written forms texts) :
    GivesValue (2 + 2 * forms.length) (entryLines column (form :: forms) ++ ['\n'])
      (.blockSequenceStart :: (entryKinds (text :: texts) ++ [.blockEnd])) where
  enough := by
    have lines := length_entryLines column forms
    simp only [entryLines_cons, List.length_append, List.length_cons]
    omega
  emits := by
    intro fuel place colon rest more settled noMarker behind onward
    have lines : entryLines column (form :: forms) ++ ['\n'] ++ rest =
        '\n' :: List.replicate column ' ' ++
          '-' :: ' ' :: (form ++ (entryLines column forms ++ '\n' :: rest)) := by
      simp [entryLines_cons]
    have kinds : .blockSequenceStart :: (entryKinds (text :: texts) ++ [.blockEnd]) ++ more =
        .blockSequenceStart :: .blockEntry :: .scalar (String.ofList text) ::
          (entryKinds texts ++ .blockEnd :: more) := by
      simp [entryKinds]
    have steps : fuel + (2 + 2 * forms.length) = fuel + 1 + 2 * forms.length + 1 := by omega
    rw [lines] at behind
    rw [kinds, steps]
    have arrives := behind.arrives_line (isSettled_sign (by decide) _)
    refine Emits.firstEntry (isWritten.isSettled _) (by simpa using deeper) arrives
      fun item atItem => ?_
    refine Emits.entriesBefore id (fun isLast atLast => ?_) isWritten areWritten atItem
    exact Emits.written isLast (by omega) (Nat.zero_le _) settled noMarker atLast
      fun next arrives => onward next [column] (by simpa using deeper) arrives

/-- Empty brackets in the line of their key give their two tokens. -/
theorem givesValue_emptyFlow :
    GivesValue 2 " []\n".toList [.flowSequenceStart, .flowSequenceEnd] where
  enough := by decide
  emits := by
    intro fuel place colon rest more settled noMarker behind onward
    refine Emits.openSequence (Nat.zero_le _) behind fun bracket inside => ?_
    refine Emits.closeSequence inside fun next atLine => ?_
    exact onward next [] (by simp) (atLine.arrives_line settled)

end Scan

/-- An entry of a block mapping as it is written, with its meaning. -/
structure WrittenEntry where
  key : List Char
  /-- What is written behind the colon, up to the next entry. -/
  written : List Char
  /-- The tokens of the value. -/
  spelled : List TokenKind
  meant : Value
  /-- How many steps the value takes at most. -/
  steps : Nat
  isPlain : IsPlain key
  short : key.length ≤ 1024
  setOff : ∃ c others, written = c :: others ∧ endsIndicator c = true
  gives : Scan.GivesValue steps written spelled
  spells : Compose.SpellsValue spelled meant

namespace WrittenEntry

/-- The text of an entry. -/
def text (entry : WrittenEntry) : List Char :=
  entry.key ++ ':' :: entry.written

/-- The tokens of entries. -/
def kinds (entries : List WrittenEntry) : List TokenKind :=
  Compose.mappingEntries (entries.map fun entry => (String.ofList entry.key, entry.spelled))

/-- The steps that entries take at most. -/
def totalSteps : List WrittenEntry → Nat
  | [] => 0
  | entry :: others => entry.steps + 2 + totalSteps others

/-- The value of entries. -/
def value (entries : List WrittenEntry) : Value :=
  .mapping (entries.map fun entry => (.text (String.ofList entry.key), entry.meant))

/-- Entries have a character for every step that they take. -/
theorem totalSteps_le (entries : List WrittenEntry) :
    totalSteps entries ≤ (entries.flatMap text).length := by
  induction entries with
  | nil => exact Nat.le_refl 0
  | cons entry others inductionHypothesis =>
      have enough := entry.gives.enough
      have some := List.length_pos_iff.2 entry.isPlain.nonempty
      rw [totalSteps, List.flatMap_cons, List.length_append, text, List.length_append,
        List.length_cons]
      omega

/-- Entries begin with a key, or there are none. -/
theorem isSettled_flatMap_text (entries : List WrittenEntry) :
    IsSettled (entries.flatMap text) := by
  cases entries with
  | nil => exact isSettled_nil
  | cons entry others =>
      rw [List.flatMap_cons, text, List.append_assoc]
      exact (Written.plain entry.isPlain).isSettled _

/-- No document marker stands in front of entries. -/
theorem not_atDocumentMarker (entries : List WrittenEntry) (mark : Mark) :
    Cursor.atDocumentMarker ⟨mark, entries.flatMap text⟩ = false := by
  cases entries with
  | nil => rfl
  | cons entry others =>
      have noMarker := entry.isPlain.beginsPlain.not_atMarker mark (by decide : ':' ≠ '-')
        (by decide) (entry.written ++ others.flatMap text)
      rw [List.flatMap_cons, text, List.append_assoc, List.cons_append, Cursor.atDocumentMarker,
        noMarker.1, noMarker.2]
      rfl

variable {scan : Scan}

/-- At the first column, an entry gives its key and its value. The key closes what the entry
in front has left open, and opens the mapping if it is the first one. -/
theorem emits_text {fuel : Nat} {columns : List Nat} (entry : WrittenEntry)
    {rest : List Char} {more : List TokenKind}
    (arrives : scan.Arrives columns true 0 (entry.text ++ rest)) (settled : IsSettled rest)
    (noMarker : ∀ mark, Cursor.atDocumentMarker ⟨mark, rest⟩ = false)
    (outermost : Scan.opened (Scan.around columns 0) 0 = [0])
    (onward : ∀ (next : Scan) (inner : List Nat), (∀ level ∈ inner, 0 < level) →
      next.Arrives (inner ++ [0]) true 0 rest →
        Scan.Emits fuel next (List.replicate inner.length .blockEnd ++ more)) :
    Scan.Emits (fuel + entry.steps + 2) scan
      (List.replicate (Scan.closed columns 0).length .blockEnd ++
        (Scan.keyKinds (Scan.around columns 0) 0 entry.key ++ (entry.spelled ++ more))) := by
  obtain ⟨c, others, begins, setOff⟩ := entry.setOff
  rw [text, List.append_assoc, List.cons_append] at arrives
  refine Scan.Emits.closingKey entry.isPlain entry.short (by rw [begins]; exact setOff) arrives
    fun colon behind => ?_
  rw [outermost] at behind
  exact entry.gives.emits settled noMarker behind onward

/-- Behind an entry, further entries are given up to the end of the text. -/
theorem emits_later (entries : List WrittenEntry) {fuel : Nat} {inner : List Nat}
    (deeper : ∀ level ∈ inner, 0 < level)
    (arrives : scan.Arrives (inner ++ [0]) true 0 (entries.flatMap text)) :
    Scan.Emits (fuel + 2 + totalSteps entries) scan (List.replicate inner.length .blockEnd ++
      (kinds entries ++ [.blockEnd, .streamEnd])) := by
  induction entries generalizing scan inner with
  | nil =>
      have ends : Scan.Emits (fuel + 2) scan _ := Scan.Emits.ending arrives.atEnd
      simpa [List.replicate_add, kinds, Compose.mappingEntries, totalSteps] using ends
  | cons entry others inductionHypothesis =>
      have steps : fuel + 2 + totalSteps (entry :: others) =
          fuel + 2 + totalSteps others + entry.steps + 2 := by
        rw [totalSteps]
        omega
      have tokens : kinds (entry :: others) = Scan.keyKinds [0] 0 entry.key ++
          (entry.spelled ++ kinds others) := by
        simp [kinds, Compose.mappingEntries, Scan.keyKinds]
      rw [List.flatMap_cons] at arrives
      have outermost := Scan.around_append_zero deeper
      have emits := entry.emits_text arrives (isSettled_flatMap_text others)
        (not_atDocumentMarker others) (by rw [outermost]; rfl)
        fun next inner deeperNext arrivesNext => inductionHypothesis deeperNext arrivesNext
      rw [outermost, Scan.closed_append_zero deeper] at emits
      rw [steps, tokens]
      simpa using emits

/-- The tokens of a text of entries are those of a mapping. -/
theorem kinds_tokenize {entries : List WrittenEntry} (nonempty : entries ≠ [])
    (version : Version) :
    Yaml.kinds (tokenize version (entries.flatMap text)).tokens =
      .streamStart :: (.blockMappingStart :: (kinds entries ++ [.blockEnd]) ++ [.streamEnd]) := by
  obtain ⟨first, others, rfl⟩ := List.exists_cons_of_ne_nil nonempty
  have start := Scan.start_arrives version (isSettled_flatMap_text (first :: others))
  obtain ⟨spare, length⟩ := Nat.exists_eq_add_of_le' (totalSteps_le (first :: others))
  have fuel : spare + totalSteps (first :: others) + 2 =
      spare + 2 + totalSteps others + first.steps + 2 := by
    rw [totalSteps]
    omega
  have emits : Scan.Emits (spare + 2 + totalSteps others + first.steps + 2) _ _ :=
    first.emits_text start (isSettled_flatMap_text others) (not_atDocumentMarker others) rfl
      fun next inner deeper arrives => emits_later others deeper arrives
  rw [tokenize, length, fuel, emits.2]
  simp [Scan.start, Yaml.kinds, Scan.keyKinds, Scan.closed, Scan.around, kinds,
    Compose.mappingEntries]

/-- The tokens of entries with different keys spell their mapping. -/
theorem spells_kinds {entries : List WrittenEntry}
    (distinct : (entries.map fun entry => String.ofList entry.key).Nodup) :
    Compose.Spells (.blockMappingStart :: (kinds entries ++ [.blockEnd])) (value entries) := by
  have spell : List.Forall₂ Compose.SpellsEntry
      (entries.map fun entry => (String.ofList entry.key, entry.spelled))
      (entries.map fun entry => (String.ofList entry.key, entry.meant)) := by
    rw [List.forall₂_map_left_iff, List.forall₂_map_right_iff, List.forall₂_same]
    exact fun entry _ => ⟨rfl, entry.spells⟩
  have spells := Compose.spells_mapping spell (by simpa [Function.comp_def] using distinct)
  simpa [value, kinds, Function.comp_def] using spells

/-- A text of entries with different keys is loaded as their mapping. -/
theorem load_entries (version : Option Version) {entries : List WrittenEntry}
    (nonempty : entries ≠ []) (distinct : (entries.map fun entry => String.ofList entry.key).Nodup)
    (readable : ∀ c ∈ entries.flatMap text, isReadable c = true) :
    load version (entries.flatMap text) = (.ok (some (value entries)), version) := by
  obtain ⟨root, composed, means⟩ := compose_of_spells (spells_kinds distinct)
    (kinds_tokenize nonempty (version.getD .v12))
  simp only [load, firstUnreadable_eq_none readable, composed, bind, Except.bind, means.toValue]
  rfl

end WrittenEntry

end Roster.Yaml
