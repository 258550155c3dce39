import Mathlib.Data.Set.Card
import Roster.Proofs.Text.Spacing
import Roster.Source

/-!
# The one decomposition of a text

Whoever puts a text together from words with blanks around them has no choice: there is one
way to do it for each text. So the words of a text can be told without cutting it, as its
maximal runs of characters that are not blank, each of which is one word.
-/

namespace Roster

namespace Text

/-- What lies in a class in front of a text that does not go on in it is all that lies in the
class in front of both. -/
theorem takeWhile_append_eq {inClass : Char → Bool} {front rest : List Char}
    (inside : ∀ c ∈ front, inClass c = true) (stops : ∀ c ∈ rest.head?, inClass c = false) :
    (front ++ rest).takeWhile inClass = front := by
  rw [List.takeWhile_append_of_pos inside]
  cases rest with
  | nil => simp
  | cons c others => simp [stops c rfl]

/-- A text that is cut where a class of characters ends is always cut in the same place. -/
theorem eq_of_append_eq {inClass : Char → Bool} {front other rest others : List Char}
    (inside : ∀ c ∈ front, inClass c = true) (stops : ∀ c ∈ rest.head?, inClass c = false)
    (insideOther : ∀ c ∈ other, inClass c = true)
    (stopsOther : ∀ c ∈ others.head?, inClass c = false)
    (same : front ++ rest = other ++ others) : front = other ∧ rest = others := by
  have fronts : front = other := by
    rw [← takeWhile_append_eq inside stops, same, takeWhile_append_eq insideOther stopsOther]
  subst fronts
  exact ⟨rfl, List.append_cancel_left same⟩

/-- An unbroken text is cut off in the same place wherever something blank follows, or
nothing. -/
theorem eq_of_unbroken_append {word other rest others : List Char} (unbroken : Unbroken word)
    (ends : startsWord rest = false) (unbrokenOther : Unbroken other)
    (endsOther : startsWord others = false) (same : word ++ rest = other ++ others) :
    word = other ∧ rest = others := by
  have stops : ∀ {text : List Char}, startsWord text = false →
      ∀ c ∈ text.head?, (!isBlank c) = false := by
    intro text ends c isHead
    simpa [startsWord, Option.mem_def.1 isHead] using ends
  have inside : ∀ {text : List Char}, Unbroken text → ∀ c ∈ text, (!isBlank c) = true := by
    intro text unbroken c member
    simp [unbroken c member]
  exact eq_of_append_eq (inside unbroken) (stops ends) (inside unbrokenOther) (stops endsOther)
    same

namespace Spacing

/-- The words with the blanks behind them. -/
def body (parts : List SpacedWord) : List Char :=
  parts.flatMap fun part => part.word ++ part.behind

/-- In front of its blanks a text begins with its first word, if it has one. -/
theorem IsProper.head_body {spacing : Spacing} (proper : spacing.IsProper) :
    ∀ c ∈ (body spacing.parts).head?, isBlank c = false := by
  obtain ⟨front, parts⟩ := spacing
  cases parts with
  | nil => simp [body]
  | cons part others =>
      obtain ⟨nonempty, unbroken⟩ := proper.isWord part List.mem_cons_self
      obtain ⟨d, more, isWord⟩ := List.exists_cons_of_ne_nil nonempty
      intro c isHead
      have same : d = c := by simpa [body, isWord] using isHead
      exact unbroken c (by simp [isWord, same])

/-- Where there are words, something is written. -/
theorem IsProper.body_eq_nil {spacing : Spacing} (proper : spacing.IsProper)
    (nothing : body spacing.parts = []) : spacing.parts = [] := by
  obtain ⟨front, parts⟩ := spacing
  cases parts with
  | nil => rfl
  | cons part others =>
      have nonempty := (proper.isWord part List.mem_cons_self).1
      simp [body, nonempty] at nothing

/-- A text is put together in one way only. -/
theorem IsProper.eq_of_text_eq {left right : Spacing} (properLeft : left.IsProper)
    (properRight : right.IsProper) (same : left.text = right.text) : left = right := by
  obtain ⟨front, parts⟩ := left
  obtain ⟨other, others⟩ := right
  induction parts generalizing front other others with
  | nil =>
      obtain ⟨rfl, bodies⟩ := eq_of_append_eq properLeft.blankFront properLeft.head_body
        properRight.blankFront properRight.head_body same
      obtain rfl : others = [] := properRight.body_eq_nil bodies.symm
      rfl
  | cons part more inductionHypothesis =>
      obtain ⟨rfl, bodies⟩ := eq_of_append_eq properLeft.blankFront properLeft.head_body
        properRight.blankFront properRight.head_body same
      cases others with
      | nil => exact absurd (properLeft.body_eq_nil bodies) (List.cons_ne_nil part more)
      | cons otherPart otherMore =>
          have split : part.word ++ text { front := part.behind, parts := more } =
              otherPart.word ++ text { front := otherPart.behind, parts := otherMore } := by
            simpa [body, text] using bodies
          obtain ⟨words, rests⟩ := eq_of_unbroken_append
            (properLeft.isWord part List.mem_cons_self).2 properLeft.not_startsWord
            (properRight.isWord otherPart List.mem_cons_self).2 properRight.not_startsWord split
          obtain ⟨behinds, rfl⟩ := Spacing.mk.inj
            (inductionHypothesis _ properLeft.tail _ _ properRight.tail rests)
          obtain rfl : part = otherPart := by
            cases part
            cases otherPart
            simp_all
          rfl

/-- A text that goes on behind a blank character is put together if its rest is. -/
theorem IsProper.exists_append {piece : List Char} (unbroken : Unbroken piece) {c : Char}
    (blank : isBlank c = true) {rest : Spacing} (proper : rest.IsProper) :
    ∃ spacing : Spacing, spacing.IsProper ∧ spacing.text = piece ++ c :: rest.text := by
  have blanks : ∀ d ∈ c :: rest.front, isBlank d = true :=
    List.forall_mem_cons.2 ⟨blank, proper.blankFront⟩
  cases piece with
  | nil => exact ⟨{ rest with front := c :: rest.front }, { proper with blankFront := blanks }, rfl⟩
  | cons d more =>
      let part : SpacedWord := { word := d :: more, behind := c :: rest.front }
      have apart : ∀ other ∈ (part :: rest.parts).dropLast, other.behind ≠ [] := by
        intro other member
        cases parts : rest.parts with
        | nil => simp [parts] at member
        | cons next others =>
            rw [parts, List.dropLast_cons_cons, List.mem_cons, ← parts] at member
            rcases member with rfl | later
            · exact List.cons_ne_nil c rest.front
            · exact proper.apart other later
      refine ⟨{ front := [], parts := part :: rest.parts }, ⟨?_, ?_, ?_, apart⟩, ?_⟩
      · exact List.forall_mem_cons.2 ⟨⟨List.cons_ne_nil d more, unbroken⟩, proper.isWord⟩
      · exact List.forall_mem_nil _
      · exact List.forall_mem_cons.2 ⟨blanks, proper.blankBehind⟩
      · simp [text, part]

/-- Every text is put together from words with blanks around them. -/
theorem exists_isProper (content : List Char) :
    ∃ spacing : Spacing, spacing.IsProper ∧ spacing.text = content := by
  induction content using separated_induction isBlank with
  | whole piece unbroken =>
      by_cases nothing : piece = []
      · refine ⟨{ front := [], parts := [] }, ⟨?_, ?_, ?_, ?_⟩, nothing.symm⟩
        all_goals exact List.forall_mem_nil _
      · refine ⟨{ front := [], parts := [{ word := piece, behind := [] }] }, ⟨?_, ?_, ?_, ?_⟩, ?_⟩
        · exact List.forall_mem_singleton.2 ⟨nothing, unbroken⟩
        · exact List.forall_mem_nil _
        · exact List.forall_mem_singleton.2 (List.forall_mem_nil _)
        · exact List.forall_mem_nil _
        · simp [text]
  | cut piece c rest unbroken blank inductionHypothesis =>
      obtain ⟨spacing, proper, rfl⟩ := inductionHypothesis
      exact IsProper.exists_append unbroken blank proper

end Spacing

/-- A part of a text, with what is in front of it and what is behind it. -/
structure Run where
  front : List Char
  word : List Char
  behind : List Char
  deriving DecidableEq, Repr

namespace Run

/-- A run of characters of a text that are not blank, which no further character joins on
either side. -/
structure IsMaximal (run : Run) (text : List Char) : Prop where
  text_eq : run.front ++ (run.word ++ run.behind) = text
  nonempty : run.word ≠ []
  unbroken : Unbroken run.word
  opens : run.front.getLast?.all isBlank = true
  ends : startsWord run.behind = false

/-- The part as it lies in a longer text. -/
def after (run : Run) (before : List Char) : Run :=
  { run with front := before ++ run.front }

/-- A part keeps its place among the others in a longer text. -/
theorem after_injective (before : List Char) :
    Function.Injective fun run : Run => run.after before := by
  rintro ⟨front, word, behind⟩ ⟨other, otherWord, otherBehind⟩ same
  simpa [after] using same

/-- Nothing unbroken but the empty text ends in a blank character or in nothing. -/
theorem eq_nil_of_opens {front : List Char} (unbroken : Unbroken front)
    (opens : front.getLast?.all isBlank = true) : front = [] := by
  by_contra nonempty
  rw [List.getLast?_eq_getLast_of_ne_nil nonempty, Option.all_some,
    unbroken _ (List.getLast_mem nonempty)] at opens
  cases opens

/-- A run of an unbroken text is the whole text. -/
theorem isMaximal_unbroken_iff {piece : List Char} (unbroken : Unbroken piece) {run : Run} :
    run.IsMaximal piece ↔ piece ≠ [] ∧ run = { front := [], word := piece, behind := [] } := by
  constructor
  · rintro ⟨rfl, nonempty, inside, opens, ends⟩
    obtain ⟨front, word, behind⟩ := run
    obtain rfl : front = [] :=
      eq_nil_of_opens (fun c member => unbroken c (List.mem_append_left _ member)) opens
    have nothing : behind = [] := by
      cases behind with
      | nil => rfl
      | cons c others =>
          have visible : isBlank c = false := unbroken c (by simp)
          simp [startsWord, visible] at ends
    subst nothing
    exact ⟨by simpa using nonempty, by simp⟩
  · rintro ⟨nonempty, rfl⟩
    exact ⟨by simp, nonempty, unbroken, rfl, rfl⟩

/-- A run of a text that goes on behind a blank character is all that is in front of it, or a
run of what is behind it. -/
theorem isMaximal_append_iff {piece : List Char} (unbroken : Unbroken piece) {c : Char}
    (blank : isBlank c = true) {rest : List Char} {run : Run} :
    run.IsMaximal (piece ++ c :: rest) ↔
      piece ≠ [] ∧ run = { front := [], word := piece, behind := c :: rest } ∨
        ∃ later : Run, later.IsMaximal rest ∧ later.after (piece ++ [c]) = run := by
  have endsPiece : startsWord (c :: rest) = false := by simp [startsWord, blank]
  constructor
  · rintro ⟨same, nonempty, inside, opens, ends⟩
    obtain ⟨front, word, behind⟩ := run
    dsimp only at same nonempty inside opens ends
    rcases List.append_eq_append_iff.1 same with ⟨middle, rfl, split⟩ | ⟨middle, rfl, split⟩
    · obtain rfl : front = [] :=
        eq_nil_of_opens (fun d member => unbroken d (List.mem_append_left _ member)) opens
      obtain ⟨rfl, rfl⟩ := eq_of_unbroken_append inside ends
        (fun d member => unbroken d (List.mem_append_right _ member)) endsPiece split
      exact .inl ⟨nonempty, rfl⟩
    · right
      cases middle with
      | nil =>
          obtain ⟨d, others, rfl⟩ := List.exists_cons_of_ne_nil nonempty
          obtain ⟨rfl, -⟩ := List.cons.inj split
          exact absurd (inside.head.symm.trans blank) Bool.false_ne_true
      | cons d more =>
          obtain ⟨rfl, isRest⟩ := List.cons.inj split
          refine ⟨{ front := more, word, behind }, ⟨isRest.symm, nonempty, inside, ?_, ends⟩, ?_⟩
          · cases more with
            | nil => rfl
            | cons e others =>
                rwa [List.getLast?_append_of_ne_nil _ (List.cons_ne_nil _ _),
                  List.getLast?_cons_cons] at opens
          · simp [after]
  · rintro (⟨nonempty, rfl⟩ | ⟨later, ⟨rfl, nonempty, inside, opens, ends⟩, rfl⟩)
    · exact ⟨rfl, nonempty, unbroken, rfl, endsPiece⟩
    · refine ⟨by simp [after], nonempty, inside, ?_, ends⟩
      cases front : later.front with
      | nil => simp [after, front, blank]
      | cons d others =>
          rw [after, front, List.getLast?_append_of_ne_nil _ (List.cons_ne_nil d others), ← front]
          exact opens

/-- A piece with something behind it as a run, unless it is empty. -/
def ofPiece (piece behind : List Char) : List Run :=
  if piece.isEmpty then [] else [{ front := [], word := piece, behind }]

theorem mem_ofPiece {piece behind : List Char} {run : Run} :
    run ∈ ofPiece piece behind ↔ piece ≠ [] ∧ run = { front := [], word := piece, behind } := by
  cases piece <;> simp [ofPiece]

/-- The words of an unbroken piece are those of its run. -/
theorem map_word_ofPiece {piece : List Char} (unbroken : Unbroken piece) (behind : List Char) :
    (ofPiece piece behind).map word = words piece := by
  cases piece with
  | nil => rfl
  | cons c others => exact (words_of_unbroken (List.cons_ne_nil c others) unbroken).symm

theorem nodup_ofPiece (piece behind : List Char) : (ofPiece piece behind).Nodup := by
  cases piece with
  | nil => exact List.nodup_nil
  | cons c others => exact List.nodup_singleton _

/-- The maximal runs of a text, one after another, are its words. -/
theorem exists_runs (text : List Char) :
    ∃ runs : List Run, runs.map word = words text ∧ runs.Nodup ∧
      ∀ run : Run, run ∈ runs ↔ run.IsMaximal text := by
  induction text using separated_induction isBlank with
  | whole piece unbroken =>
      refine ⟨ofPiece piece [], map_word_ofPiece unbroken [], nodup_ofPiece piece [], fun run => ?_⟩
      rw [mem_ofPiece, isMaximal_unbroken_iff unbroken]
  | cut piece c rest unbroken blank inductionHypothesis =>
      obtain ⟨runs, areWords, distinct, areRuns⟩ := inductionHypothesis
      refine ⟨ofPiece piece (c :: rest) ++ runs.map (·.after (piece ++ [c])), ?_, ?_, fun run => ?_⟩
      · rw [List.map_append, map_word_ofPiece unbroken, words_append_blank blank, ← areWords,
          List.map_map]
        rfl
      · refine (nodup_ofPiece _ _).append (distinct.map (after_injective _)) ?_
        intro run inFront later
        obtain ⟨other, -, rfl⟩ := List.mem_map.1 later
        have same := congrArg Run.front (mem_ofPiece.1 inFront).2
        simp [after] at same
      · rw [List.mem_append, mem_ofPiece, List.mem_map, isMaximal_append_iff unbroken blank]
        simp only [areRuns]

/-- There are as many maximal runs as words. -/
theorem ncard_isMaximal (text : List Char) :
    {run : Run | run.IsMaximal text}.ncard = (words text).length := by
  obtain ⟨runs, areWords, distinct, areRuns⟩ := exists_runs text
  have same : {run : Run | run.IsMaximal text} = runs.toFinset := by
    ext run
    simp [areRuns]
  rw [same, Set.ncard_coe_finset, List.toFinset_card_of_nodup distinct, ← areWords,
    List.length_map]

end Run

/-- The words on both sides of blank characters. -/
theorem words_append_blanks {blanks : List Char} (nonempty : blanks ≠ [])
    (blank : ∀ c ∈ blanks, isBlank c = true) (front behind : List Char) :
    words (front ++ blanks ++ behind) = words front ++ words behind := by
  obtain ⟨c, others, rfl⟩ := List.exists_cons_of_ne_nil nonempty
  rw [List.append_assoc, List.cons_append, words_append_blank (blank c List.mem_cons_self),
    words_append_of_blank fun d member => blank d (List.mem_cons_of_mem c member)]

end Text

/-- Every text is put together in exactly one way from words with blanks around them, and is
cut into just these words. So blanks between two texts keep their words apart, and there is one
word for each maximal run of characters that are not blank. -/
theorem words_decompose_uniquely (text : List Char) :
    (∃! spacing : Text.Spacing, spacing.IsProper ∧ spacing.text = text) ∧
    (∀ spacing : Text.Spacing, spacing.IsProper → spacing.text = text →
      wordsOf text = spacing.words.map String.ofList) ∧
    (∀ front blanks behind : List Char, blanks ≠ [] → (∀ c ∈ blanks, Text.isBlank c = true) →
      front ++ blanks ++ behind = text → wordsOf text = wordsOf front ++ wordsOf behind) ∧
    {run : Text.Run | run.IsMaximal text}.ncard = (wordsOf text).length := by
  refine ⟨?_, ?_, ?_, ?_⟩
  · obtain ⟨spacing, proper, isText⟩ := Text.Spacing.exists_isProper text
    refine ⟨spacing, ⟨proper, isText⟩, ?_⟩
    rintro other ⟨properOther, isOther⟩
    exact properOther.eq_of_text_eq proper (isOther.trans isText.symm)
  · rintro spacing proper rfl
    rw [wordsOf, proper.words_text]
  · rintro front blanks behind nonempty blank rfl
    simp only [wordsOf, Text.words_append_blanks nonempty blank, List.map_append]
  · rw [Text.Run.ncard_isMaximal, wordsOf, List.length_map]

end Roster
