import Roster.Proofs.Yaml.FlowStream
import Roster.Yaml.Document

/-!
# Documents of one sequence

A document that is a mapping with one key, whose value is a sequence of scalars: a block
sequence at any column, also at that of the key, or a flow sequence behind the key. The
tokens of its text follow from the rules of the stream, and its value from the rules of
the grammar.
-/

namespace Roster.Yaml

/-- A text of readable characters is read. -/
theorem firstUnreadable_eq_none {text : List Char} (readable : ∀ c ∈ text, isReadable c = true) :
    firstUnreadable text = none := by
  have whole : text.takeWhile isReadable = text := List.takeWhile_eq_self_iff.2 readable
  simp [firstUnreadable, whole]

/-- The beginning of a text reads its first token at the first column. -/
theorem Scan.start_arrives (version : Version) {text : List Char} (settled : IsSettled text) :
    (Scan.start version text).Arrives [] true 0 text :=
  ⟨rfl, rfl, rfl, settled, [], by simp, rfl, rfl, rfl, by simp [Scan.start]⟩

/-- The tokens of a mapping with one key. -/
def keyedTokens (key : List Char) (spelled : List TokenKind) : List TokenKind :=
  .blockMappingStart :: (Compose.mappingEntries [(String.ofList key, spelled)] ++ [.blockEnd])

section Keyed

variable {key rest : List Char} {spelled : List TokenKind} {value : Value}

/-- The tokens of a text that begins with a key are those of a mapping, if what stands
behind the colon gives the tokens of a value. -/
theorem kinds_tokenize_keyed (version : Version) (isPlain : IsPlain key)
    (short : key.length ≤ 1024) (setOff : endsIndicator (rest.headD endOfText) = true)
    (emits : ∀ colon : Scan, colon.Behind [0] (key.length + 1) rest →
      Scan.Emits (key.length + 1 + rest.length) colon (spelled ++ [.blockEnd, .streamEnd])) :
    kinds (tokenize version (key ++ ':' :: rest)).tokens =
      .streamStart :: (keyedTokens key spelled ++ [.streamEnd]) := by
  have settled := (Written.plain isPlain).isSettled (':' :: rest)
  have start := Scan.Emits.key isPlain short setOff (by simp)
    (Scan.start_arrives version settled) fun colon behind => by
      rw [Nat.zero_add] at behind
      exact emits colon behind
  have fuel : (key ++ ':' :: rest).length + 2 = key.length + 1 + rest.length + 2 := by
    simp only [List.length_append, List.length_cons]
    omega
  rw [tokenize, fuel, start.2]
  simp [Scan.start, kinds, Scan.keyKinds, keyedTokens, Compose.mappingEntries]

/-- The tokens of a mapping with one key spell that mapping. -/
theorem spells_keyedTokens (key : List Char) (spells : Compose.SpellsValue spelled value) :
    Compose.Spells (keyedTokens key spelled) (.mapping [(.text (String.ofList key), value)]) := by
  have entries : List.Forall₂ Compose.SpellsEntry [(String.ofList key, spelled)]
      [(String.ofList key, value)] := .cons ⟨rfl, spells⟩ .nil
  exact Compose.spells_mapping entries (by simp)

/-- A text that begins with a key is loaded as a mapping from the key to what stands
behind the colon. -/
theorem load_keyed (version : Option Version) (isPlain : IsPlain key)
    (short : key.length ≤ 1024) (setOff : endsIndicator (rest.headD endOfText) = true)
    (readable : ∀ c ∈ key ++ ':' :: rest, isReadable c = true)
    (spells : Compose.SpellsValue spelled value)
    (emits : ∀ colon : Scan, colon.Behind [0] (key.length + 1) rest →
      Scan.Emits (key.length + 1 + rest.length) colon (spelled ++ [.blockEnd, .streamEnd])) :
    load version (key ++ ':' :: rest) =
      (.ok (some (.mapping [(.text (String.ofList key), value)])), version) := by
  obtain ⟨root, composed, means⟩ := compose_of_spells (spells_keyedTokens key spells)
    (kinds_tokenize_keyed (version.getD .v12) isPlain short setOff emits)
  simp only [load, firstUnreadable_eq_none readable, composed, bind, Except.bind, means.toValue]
  rfl

end Keyed

/-- The value of a sequence of texts. -/
def sequenceOf (texts : List (List Char)) : Value :=
  .sequence (texts.map fun text => .text (String.ofList text))

section Block

variable {Form : List Char → List Char → Prop} {key form text ending : List Char}
  {forms texts : List (List Char)}

/-- The tokens of entries that are scalars spell their texts. -/
theorem exists_spells_entryKinds (texts : List (List Char)) :
    ∃ spelled, Scan.entryKinds texts = Compose.sequenceEntries spelled ∧
      List.Forall₂ Compose.Spells spelled
        (texts.map fun text => Value.text (String.ofList text)) := by
  refine ⟨texts.map fun text => [.scalar (String.ofList text)], ?_, ?_⟩
  · rw [Scan.entryKinds, Compose.sequenceEntries, List.flatMap_map]
  · rw [List.forall₂_map_left_iff, List.forall₂_map_right_iff, List.forall₂_same]
    exact fun text _ => Compose.spells_scalar (String.ofList text)

/-- The text of a mapping with one key and a block sequence at a column as its value. -/
def sequenceDocument (key : List Char) (column : Nat) (forms : List (List Char))
    (ending : List Char) : List Char :=
  key ++ ':' :: (Scan.entryLines column forms ++ ending)

/-- The characters of a document with a block sequence. -/
theorem forall_mem_sequenceDocument {P : Char → Prop} {column : Nat} (ofKey : ∀ c ∈ key, P c)
    (ofMarks : ∀ c ∈ [':', '\n', ' ', '-'], P c) (ofForms : ∀ form ∈ forms, ∀ c ∈ form, P c)
    (ofEnding : ∀ c ∈ ending, P c) : ∀ c ∈ sequenceDocument key column forms ending, P c := by
  intro c member
  simp only [sequenceDocument, Scan.entryLines, List.mem_append, List.mem_cons,
    List.mem_flatMap] at member
  rcases member with inKey | isColon | ⟨form, isForm, isNewline | (isSpace | inDash) | inForm⟩ |
    inEnding
  · exact ofKey c inKey
  · exact ofMarks c (by simp [isColon])
  · exact ofMarks c (by simp [isNewline])
  · exact ofMarks c (by simp [List.eq_of_mem_replicate isSpace])
  · exact ofMarks c (by simp at inDash; rcases inDash with rfl | rfl <;> simp)
  · exact ofForms form isForm c inForm
  · exact ofEnding c inEnding

/-- Behind a key, a block sequence that is indented gives its start, its entries and its
end. -/
theorem Scan.Emits.indented {fuel column place : Nat} {colon : Scan} (deeper : 0 < column)
    (isBlockForm : IsBlockForm Form ending) (isForm : Form form text)
    (areForms : List.Forall₂ Form forms texts)
    (behind : colon.Behind [0] place (entryLines column (form :: forms) ++ ending)) :
    Emits (fuel + 3 + 2 * forms.length + 1) colon
      (.blockSequenceStart :: (entryKinds (text :: texts) ++ [.blockEnd]) ++
        [.blockEnd, .streamEnd]) := by
  have lines : entryLines column (form :: forms) ++ ending = '\n' :: List.replicate column ' ' ++
      '-' :: ' ' :: (form ++ (entryLines column forms ++ ending)) := by
    simp [entryLines_cons]
  have kinds : .blockSequenceStart :: (entryKinds (text :: texts) ++ [.blockEnd]) ++
      [.blockEnd, .streamEnd] = .blockSequenceStart :: .blockEntry ::
        .scalar (String.ofList text) :: (entryKinds texts ++
          (List.replicate [column, 0].length .blockEnd ++ [.streamEnd])) := by
    simp [entryKinds, List.replicate]
  rw [lines] at behind
  rw [kinds]
  have arrives := behind.arrives_line (isSettled_sign (by decide) _)
  refine Emits.firstEntry ((isBlockForm.written isForm).isSettled _) (by simpa using deeper)
    arrives fun item atItem => ?_
  exact Emits.entries isBlockForm isForm areForms atItem

/-- Behind a key, a block sequence at the column of the key gives its entries only. -/
theorem Scan.Emits.unindented {fuel place : Nat} {colon : Scan}
    (isBlockForm : IsBlockForm Form ending) (isForm : Form form text)
    (areForms : List.Forall₂ Form forms texts)
    (behind : colon.Behind [0] place (entryLines 0 (form :: forms) ++ ending)) :
    Emits (fuel + 3 + 2 * forms.length + 1) colon
      (entryKinds (text :: texts) ++ [.blockEnd, .streamEnd]) := by
  have lines : entryLines 0 (form :: forms) ++ ending = '\n' :: List.replicate 0 ' ' ++
      '-' :: ' ' :: (form ++ (entryLines 0 forms ++ ending)) := by
    simp [entryLines_cons]
  rw [lines] at behind
  have arrives := behind.arrives_line (isSettled_sign (by decide) _)
  refine Emits.entry ((isBlockForm.written isForm).isSettled _) arrives fun item atItem => ?_
  exact Emits.entries isBlockForm isForm areForms atItem

/-- Every entry takes up a line. -/
theorem length_entryLines (column : Nat) (forms : List (List Char)) :
    2 * forms.length ≤ (Scan.entryLines column forms).length := by
  induction forms with
  | nil => exact Nat.le_refl _
  | cons form forms inductionHypothesis =>
      rw [Scan.entryLines_cons]
      simp only [List.length_append, List.length_cons]
      omega

/-- The text of a document of one block sequence is loaded as a mapping with its key. -/
theorem load_sequenceDocument (version : Option Version) (isPlain : IsPlain key)
    (short : key.length ≤ 1024) {column : Nat} (isBlockForm : Scan.IsBlockForm Form ending)
    (isForm : Form form text) (areForms : List.Forall₂ Form forms texts)
    (readable : ∀ c ∈ sequenceDocument key column (form :: forms) ending, isReadable c = true) :
    load version (sequenceDocument key column (form :: forms) ending) =
      (.ok (some (.mapping [(.text (String.ofList key), sequenceOf (text :: texts))])),
        version) := by
  have room : 3 + 2 * forms.length + 1 ≤
      key.length + 1 + (Scan.entryLines column (form :: forms) ++ ending).length := by
    have lines := length_entryLines column forms
    rw [Scan.entryLines_cons]
    simp only [List.length_append, List.length_cons]
    omega
  obtain ⟨spare, length⟩ := Nat.exists_eq_add_of_le' room
  have fuel : spare + (3 + 2 * forms.length + 1) = spare + 3 + 2 * forms.length + 1 := by omega
  rw [fuel] at length
  obtain ⟨spelled, kinds, spell⟩ := exists_spells_entryKinds (text :: texts)
  rcases Nat.eq_zero_or_pos column with rfl | deeper
  · refine load_keyed version isPlain short rfl readable
      (Compose.spellsValue_plainSequence spell ?_) fun colon behind => ?_
    · rintro rfl
      cases spell
    · rw [length, ← kinds]
      exact Scan.Emits.unindented isBlockForm isForm areForms behind
  · refine load_keyed version isPlain short rfl readable
      (Compose.spells_sequence spell).spellsValue fun colon behind => ?_
    rw [length, ← kinds]
    exact Scan.Emits.indented deeper isBlockForm isForm areForms behind

end Block

section Flow

variable {key form text ending : List Char} {forms texts : List (List Char)}

/-- The text of a mapping with one key and a flow sequence as its value. -/
def flowDocument (key : List Char) (forms : List (List Char)) (ending : List Char) : List Char :=
  key ++ ':' :: ' ' :: '[' :: ([',', ' '].intercalate forms ++ ']' :: ending)

/-- The characters of a list with separators. -/
theorem forall_mem_intercalate {P : Char → Prop} {separator : List Char}
    (ofSeparator : ∀ c ∈ separator, P c) (ofForms : ∀ form ∈ forms, ∀ c ∈ form, P c) :
    ∀ c ∈ separator.intercalate forms, P c := by
  induction forms with
  | nil => simp [List.intercalate]
  | cons form others inductionHypothesis =>
      have behind := inductionHypothesis fun other member =>
        ofForms other (List.mem_cons_of_mem _ member)
      have first := ofForms form List.mem_cons_self
      cases others with
      | nil => rwa [List.intercalate_singleton]
      | cons next others =>
          rw [List.intercalate_cons_cons]
          intro c member
          rw [List.mem_append, List.mem_append] at member
          rcases member with (inForm | inSeparator) | isBehind
          · exact first c inForm
          · exact ofSeparator c inSeparator
          · exact behind c isBehind

/-- The characters of a document with a flow sequence. -/
theorem forall_mem_flowDocument {P : Char → Prop} (ofKey : ∀ c ∈ key, P c)
    (ofMarks : ∀ c ∈ [':', ' ', '[', ',', ']'], P c) (ofForms : ∀ form ∈ forms, ∀ c ∈ form, P c)
    (ofEnding : ∀ c ∈ ending, P c) : ∀ c ∈ flowDocument key forms ending, P c := by
  have items : ∀ c ∈ [',', ' '].intercalate forms, P c :=
    forall_mem_intercalate (fun c member => ofMarks c (by simp at member ⊢; tauto)) ofForms
  intro c member
  simp only [flowDocument, List.mem_append, List.mem_cons] at member
  rcases member with inKey | isColon | isSpace | isOpening | inItems | isClosing | inEnding
  · exact ofKey c inKey
  · exact ofMarks c (by simp [isColon])
  · exact ofMarks c (by simp [isSpace])
  · exact ofMarks c (by simp [isOpening])
  · exact items c inItems
  · exact ofMarks c (by simp [isClosing])
  · exact ofEnding c inEnding

/-- Every item but the first stands behind a comma and a space. -/
theorem length_intercalate (form : List Char) (forms : List (List Char)) :
    2 * forms.length ≤ ([',', ' '].intercalate (form :: forms)).length := by
  induction forms generalizing form with
  | nil => exact Nat.zero_le _
  | cons next forms inductionHypothesis =>
      have behind := inductionHypothesis next
      rw [List.intercalate_cons_cons]
      simp only [List.length_append, List.length_cons, List.length_nil]
      omega

/-- The text of a document of one flow sequence is loaded as a mapping with its key. -/
theorem load_flowDocument (version : Option Version) (isPlain : IsPlain key)
    (short : key.length ≤ 1024) (isWhite : ∀ c ∈ ending, c = ' ' ∨ c = '\n')
    (isPortable : Portable form text) (arePortable : List.Forall₂ Portable forms texts)
    (readable : ∀ c ∈ flowDocument key (form :: forms) ending, isReadable c = true) :
    load version (flowDocument key (form :: forms) ending) =
      (.ok (some (.mapping [(.text (String.ofList key), sequenceOf (text :: texts))])),
        version) := by
  have room : 4 + 2 * forms.length + 1 ≤ key.length + 1 +
      (' ' :: '[' :: ([',', ' '].intercalate (form :: forms) ++ ']' :: ending)).length := by
    have items := length_intercalate form forms
    have some := List.length_pos_iff.2 isPlain.nonempty
    simp only [List.length_append, List.length_cons]
    omega
  obtain ⟨spare, length⟩ := Nat.exists_eq_add_of_le' room
  have fuel : spare + (4 + 2 * forms.length + 1) = spare + 4 + 2 * forms.length + 1 := by omega
  rw [fuel] at length
  have spells := Compose.spells_flowSequence (String.ofList text) (texts.map String.ofList)
  have values : Value.sequence ((String.ofList text :: texts.map String.ofList).map Value.string) =
      sequenceOf (text :: texts) := by
    simp [sequenceOf]
  rw [values] at spells
  refine load_keyed version isPlain short rfl readable spells.spellsValue fun colon behind => ?_
  have kinds : .flowSequenceStart :: .scalar (String.ofList text) ::
      (Compose.laterItems (texts.map String.ofList) ++ [.flowSequenceEnd]) ++
        [.blockEnd, .streamEnd] =
      .flowSequenceStart :: .scalar (String.ofList text) ::
        (Compose.laterItems (texts.map String.ofList) ++ .flowSequenceEnd ::
          (List.replicate [0].length .blockEnd ++ [.streamEnd])) := by
    simp
  rw [length, kinds]
  exact Scan.Emits.openSequence (Nat.zero_le _) behind fun next inside =>
    Scan.Emits.flowItems isPortable arePortable (List.forall_mem_nil _) isWhite inside

end Flow

end Roster.Yaml
