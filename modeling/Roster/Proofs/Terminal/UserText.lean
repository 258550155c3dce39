import Roster.Proofs.Terminal.EscapedText
import Roster.Terminal.Display

/-!
# What is shown of the user's text

The message of a failure, the path of a written file and the label of a configuration become
part of a markup. Escaping takes the meaning from their tags, but neither from emoji codes nor
from a backslash in front of a bracket that opens no tag, and it does not keep every number of
backslashes at their end. In all other cases they are shown as they are, blanks apart, which is
said here as an equivalence.
-/

namespace Roster.Terminal

open Emoji (Pictures IsGallery)
open Markup (escape trailing escapedTrailing shownText shownPieces backslashes IsInert
  IsContinuation)
open Text (withoutBlanks)

variable {pictures : Pictures}

/-- Plain text in front of a tag that sets a style is a piece of its own, and the tag does not
show. -/
theorem shownText_between {front tag : List Char} (noBracket : '[' ∉ front)
    (noBackslash : '\\' ∉ front) (begins : tag.head?.any Markup.beginsTag = true)
    (noOpening : '[' ∉ tag) (noClosing : ']' ∉ tag) (text : List Char) :
    shownText pictures (shownPieces (.plain 0) (front ++ '[' :: (tag ++ ']' :: text))) =
      Markup.shownPiece pictures front ++ shownText pictures (shownPieces (.plain 0) text) := by
  rw [Markup.shownPieces_append_plain noBracket noBackslash,
    Markup.shownPieces_style begins noOpening noClosing, Markup.joinAll_cons, List.append_nil]
  rfl

/-- Behind its styles, the line about a failure shows what its message shows. -/
theorem render_error (pictures : Pictures) (text : List Char) :
    Markup.render pictures ("[bold red]Error:[/bold red] ".toList ++ text) =
      "Error: ".toList ++ shownText pictures (shownPieces (.plain 0) text) := by
  have split : "[bold red]Error:[/bold red] ".toList ++ text =
      [] ++ '[' :: ("bold red".toList ++ ']' :: ("Error:".toList ++
        '[' :: ("/bold red".toList ++ ']' :: ([' '] ++ text)))) := rfl
  rw [Markup.render_eq_shownText, split,
    shownText_between (by decide) (by decide) (by decide) (by decide) (by decide),
    shownText_between (by decide) (by decide) (by decide) (by decide) (by decide),
    Markup.shownPieces_append_plain (by decide) (by decide),
    Markup.shownText_joinAll (by decide) (by decide)]
  rfl

/-- The characters in front of the path of a written file. -/
theorem mem_written_cases {count : Nat} {c : Char}
    (member : c ∈ s!"✅ Wrote {count} entries to ".toList) :
    c.isDigit = true ∨ c ∈ "✅ Wrote entries to ".toList := by
  replace member : c ∈ ("✅ Wrote " ++ toString count ++ " entries to ").toList := member
  rw [String.toList_append, String.toList_append, List.mem_append, List.mem_append] at member
  rcases member with (before | inNumber) | behind
  · exact .inr (List.mem_append_left "entries to ".toList before)
  · rw [Nat.toString_eq_repr, Nat.toList_repr] at inNumber
    exact .inl (Nat.isDigit_of_mem_toDigits (by decide) (by decide) inNumber)
  · exact .inr (List.mem_append_right "✅ Wrote".toList behind)

theorem isPrintable_of_mem_written {count : Nat} {c : Char}
    (member : c ∈ s!"✅ Wrote {count} entries to ".toList) : Text.isPrintable c = true := by
  rcases mem_written_cases member with digit | other
  · simp only [Char.isDigit, Bool.and_eq_true, decide_eq_true_eq, UInt32.le_iff_toNat_le] at digit
    have lower : 48 ≤ c.toNat := digit.1
    have upper : c.toNat ≤ 57 := digit.2
    rw [Text.isPrintable, if_pos (by omega), decide_eq_true_eq]
    omega
  · have printable : "✅ Wrote entries to ".toList.all Text.isPrintable = true := by
      decide +kernel
    exact List.all_eq_true.1 printable c other

/-- Behind its styles, the line about a written file shows what its path shows. -/
theorem render_written (pictures : Pictures) (count : Nat) (text : List Char) :
    Markup.render pictures
        (s!"[bold green]✅ Wrote {count} entries to[/bold green] [white]".toList ++ text) =
      s!"✅ Wrote {count} entries to ".toList ++
        shownText pictures (shownPieces (.plain 0) text) := by
  have whole : s!"✅ Wrote {count} entries to ".toList =
      ("✅ Wrote ".toList ++ ((toString count).toList ++ " entries to".toList)) ++ [' '] := by
    change ("✅ Wrote " ++ toString count ++ " entries to ").toList = _
    simp only [String.toList_append, List.append_assoc]
    rfl
  generalize front_eq : "✅ Wrote ".toList ++ ((toString count).toList ++ " entries to".toList) =
    front at whole
  have split : s!"[bold green]✅ Wrote {count} entries to[/bold green] [white]".toList ++ text =
      [] ++ '[' :: ("bold green".toList ++ ']' :: (front ++
        '[' :: ("/bold green".toList ++ ']' :: ([' '] ++
          '[' :: ("white".toList ++ ']' :: text))))) := by
    change ("[bold green]✅ Wrote " ++ toString count ++
      " entries to[/bold green] [white]").toList ++ text = _
    simp only [← front_eq, String.toList_append, List.append_assoc]
    rfl
  have absent : ∀ c, c.isDigit = false → c ∉ "✅ Wrote entries to ".toList → c ∉ front := by
    intro c noDigit noOther member
    rcases mem_written_cases (whole ▸ List.mem_append_left [' '] member) with digit | other
    · rw [noDigit] at digit
      cases digit
    · exact noOther other
  have noBracket : '[' ∉ front := absent '[' (by decide) (by decide)
  have shownFront : Markup.shownPiece pictures front = front :=
    Markup.shownPiece_eq_self (absent ':' (by decide) (by decide)) noBracket
  rw [Markup.render_eq_shownText, split,
    shownText_between (by decide) (by decide) (by decide) (by decide) (by decide),
    shownText_between noBracket (absent '\\' (by decide) (by decide)) (by decide) (by decide)
      (by decide),
    shownText_between (by decide) (by decide) (by decide) (by decide) (by decide), shownFront,
    whole, List.append_assoc]
  rfl

/-- The title of a configuration shows what its label shows. -/
theorem render_configurationTitle (pictures : Pictures) (text : List Char) :
    Markup.render pictures ("Node Configuration: ".toList ++ text) =
      "Node Configuration: ".toList ++ shownText pictures (shownPieces (.plain 0) text) := by
  have split : "Node Configuration: ".toList = "Node Configuration".toList ++ [':', ' '] := rfl
  rw [Markup.render_eq_shownText, Markup.shownPieces_append_plain (by decide) (by decide), split,
    Markup.joinAll_append, Markup.shownText_joinAll (by decide) (by decide), List.append_assoc]
  exact congrArg _ (Markup.shownText_join_colon _)

theorem backslashes_inj {count other : Nat} :
    backslashes count = backslashes other ↔ count = other :=
  List.replicate_left_inj

/-- Behind the message and the label the markup ends, and backslashes at their end show in the
number that escaping gives them. -/
theorem shownText_end (count : Nat) :
    shownText pictures (shownPieces (.plain count) []) = backslashes count := by
  simp [shownPieces, shownText, Markup.shownPiece_backslashes]

/-- Where the markup ends, only a single backslash is not kept. -/
theorem escapedTrailing_iff (text : List Char) :
    withoutBlanks (shownText pictures (shownPieces (.plain (escapedTrailing text)) [])) =
      backslashes (trailing text) ↔ trailing text ≠ 1 := by
  rw [shownText_end, Markup.withoutBlanks_backslashes, backslashes_inj, escapedTrailing]
  split <;> omega

/-- Behind the path a style ends. -/
def styleEnd : List Char := "[/white]".toList

theorem isContinuation_styleEnd : IsContinuation styleEnd :=
  ⟨rfl, rfl, fun _ => ⟨0, _, rfl⟩⟩

/-- Backslashes in front of the end of the style show at half their number. -/
theorem shownText_styleEnd (count : Nat) :
    shownText pictures (shownPieces (.plain count) styleEnd) =
      backslashes (count / 2) ++ if count % 2 = 1 then styleEnd else [] := by
  have pieces : shownPieces (.plain count) styleEnd = [] :: backslashes (count / 2) ::
      if count % 2 = 1 then [styleEnd, []] else [[]] := rfl
  have shown : ∀ text, shownText pictures ([] :: backslashes (count / 2) :: text) =
      backslashes (count / 2) ++ shownText pictures text := by
    intro text
    exact congrArg (· ++ _) (Markup.shownPiece_backslashes (count / 2))
  rw [pieces, shown]
  split <;> rfl

/-- In front of the end of the style, two backslashes or more are not kept. -/
theorem escapedTrailing_styleEnd_iff (text : List Char) :
    withoutBlanks (shownText pictures (shownPieces (.plain (escapedTrailing text)) styleEnd)) =
      backslashes (trailing text) ↔ trailing text ≤ 1 := by
  rw [shownText_styleEnd, Text.withoutBlanks_append, Markup.withoutBlanks_backslashes]
  by_cases odd : escapedTrailing text % 2 = 1
  · have many : ¬ trailing text ≤ 1 := by
      rw [escapedTrailing] at odd
      split at odd <;> omega
    refine iff_of_false (fun same => ?_) many
    have bracket : '[' ∈ backslashes (trailing text) := by
      rw [← same, if_pos odd]
      exact List.mem_append_right _ (by decide)
    cases List.eq_of_mem_replicate bracket
  · have nothing : withoutBlanks [] = [] := rfl
    rw [if_neg odd, nothing, List.append_nil, backslashes_inj]
    rw [escapedTrailing] at odd ⊢
    split at odd <;> split <;> omega

/-- A markup that shows a legible text is wrapped without loss. -/
theorem withoutBlanks_markupText {markup : List Char}
    (legible : IsLegible (Markup.render pictures markup)) :
    withoutBlanks (markupText pictures markup).toList =
      withoutBlanks (Markup.render pictures markup) := by
  rw [markupText, shownMarkup, legible.visible_eq, withoutBlanks_wrap (by decide) legible.toIsPart]

/-- A markup that shows a plain text and behind it what an escaped text shows: it is legible, and
the escaped text is told when it shows as it is. -/
theorem render_escape_iff (gallery : IsGallery pictures) {front text tail markup : List Char}
    (printableFront : ∀ c ∈ front, Text.isPrintable c = true)
    (printable : ∀ c ∈ text, Text.isPrintable c = true) (continues : IsContinuation tail)
    (legibleEnd : IsLegible
      (shownText pictures (shownPieces (.plain (escapedTrailing text)) tail)))
    (rendered : Markup.render pictures markup =
      front ++ shownText pictures (shownPieces (.plain 0) (escape text ++ tail))) :
    IsLegible (Markup.render pictures markup) ∧
      (withoutBlanks (Markup.render pictures markup) = withoutBlanks (front ++ text) ↔
        IsInert pictures text ∧
          withoutBlanks (shownText pictures (shownPieces (.plain (escapedTrailing text)) tail)) =
            backslashes (trailing text)) := by
  rw [rendered]
  constructor
  · exact (IsLegible.of_isPrintable printableFront).append
      (Markup.isLegible_escape gallery printable continues legibleEnd)
  · rw [Text.withoutBlanks_append, Text.withoutBlanks_append, List.append_cancel_left_eq]
    exact Markup.withoutBlanks_escape_iff gallery text continues

theorem isLegible_backslashes (count : Nat) : IsLegible (backslashes count) :=
  IsLegible.of_isPrintable fun c member => by
    rw [List.eq_of_mem_replicate member]
    rfl

theorem isLegible_styleEnd (count : Nat) :
    IsLegible (shownText pictures (shownPieces (.plain count) styleEnd)) := by
  rw [shownText_styleEnd]
  refine (isLegible_backslashes _).append ?_
  split
  · exact IsLegible.of_isPrintable (List.all_eq_true.1 (by decide))
  · exact .nil

/-- If the markup ends behind the escaped text, a single backslash there does not show as it is. -/
theorem render_escape_end_iff (gallery : IsGallery pictures) {front text markup : List Char}
    (printableFront : ∀ c ∈ front, Text.isPrintable c = true)
    (printable : ∀ c ∈ text, Text.isPrintable c = true)
    (rendered : Markup.render pictures markup =
      front ++ shownText pictures (shownPieces (.plain 0) (escape text))) :
    IsLegible (Markup.render pictures markup) ∧
      (withoutBlanks (Markup.render pictures markup) = withoutBlanks (front ++ text) ↔
        IsInert pictures text ∧ trailing text ≠ 1) := by
  have legibleEnd : IsLegible
      (shownText pictures (shownPieces (.plain (escapedTrailing text)) [])) := by
    rw [shownText_end]
    exact isLegible_backslashes _
  rw [← List.append_nil (escape text)] at rendered
  have both := render_escape_iff gallery printableFront printable Markup.isContinuation_nil
    legibleEnd rendered
  rwa [escapedTrailing_iff] at both

/-- The message of a failure. -/
theorem errorText_literal_iff (gallery : IsGallery pictures) {message : String}
    (printable : ∀ c ∈ message.toList, Text.isPrintable c = true) :
    withoutBlanks (errorTextWith pictures message).toList =
        withoutBlanks ("Error: " ++ message).toList ↔
      IsInert pictures message.toList ∧ trailing message.toList ≠ 1 := by
  have front : ∀ c ∈ "Error: ".toList, Text.isPrintable c = true :=
    List.all_eq_true.1 (by decide)
  obtain ⟨legible, literal⟩ :=
    render_escape_end_iff gallery front printable (render_error pictures _)
  rw [errorTextWith, withoutBlanks_markupText legible, String.toList_append, literal]

/-- The path of a written file. -/
theorem writtenText_literal_iff (gallery : IsGallery pictures) (count : Nat) {path : String}
    (printable : ∀ c ∈ path.toList, Text.isPrintable c = true) :
    withoutBlanks (writtenTextWith pictures count path).toList =
        withoutBlanks (s!"✅ Wrote {count} entries to " ++ path).toList ↔
      IsInert pictures path.toList ∧ trailing path.toList ≤ 1 := by
  have rendered := render_written pictures count (escape path.toList ++ styleEnd)
  obtain ⟨legible, literal⟩ := render_escape_iff gallery
    (fun _ => isPrintable_of_mem_written) printable isContinuation_styleEnd (isLegible_styleEnd _)
    rendered
  rw [escapedTrailing_styleEnd_iff, ← String.toList_append] at literal
  have whole : writtenTextWith pictures count path = markupText pictures
      (s!"[bold green]✅ Wrote {count} entries to[/bold green] [white]".toList ++
        (escape path.toList ++ styleEnd)) :=
    congrArg (markupText pictures) (List.append_assoc ..)
  rw [whole, withoutBlanks_markupText legible]
  exact literal

/-- The label of a configuration. -/
theorem configurationText_literal_iff (gallery : IsGallery pictures)
    (configuration : Configuration) {label : String}
    (printable : ∀ c ∈ label.toList, Text.isPrintable c = true) :
    withoutBlanks (configurationTextWith pictures configuration label).toList =
        withoutBlanks ("Node Configuration: " ++ label ++ tableText configuration).toList ↔
      IsInert pictures label.toList ∧ trailing label.toList ≠ 1 := by
  have front : ∀ c ∈ "Node Configuration: ".toList, Text.isPrintable c = true :=
    List.all_eq_true.1 (by decide)
  obtain ⟨legible, literal⟩ :=
    render_escape_end_iff gallery front printable (render_configurationTitle pictures _)
  rw [configurationTextWith, String.toList_append, String.toList_append, String.toList_append,
    Text.withoutBlanks_append, Text.withoutBlanks_append, List.append_cancel_right_eq,
    configurationTitle, shownMarkup, legible.visible_eq, withoutBlanks_titleLines legible.toIsPart,
    literal]

/-- The text that the user gives is shown as it is, blanks apart, exactly if no emoji code and no
backslash in front of a bracket is interpreted, and if the backslashes at its end are kept: one
alone is doubled where the markup ends, and several are not kept in front of the end of a style. -/
theorem userText_literal_iff (gallery : IsGallery pictures) {text : String}
    (printable : ∀ c ∈ text.toList, Text.isPrintable c = true) :
    (withoutBlanks (errorTextWith pictures text).toList =
        withoutBlanks ("Error: " ++ text).toList ↔
      IsInert pictures text.toList ∧ trailing text.toList ≠ 1) ∧
    (∀ count, withoutBlanks (writtenTextWith pictures count text).toList =
        withoutBlanks (s!"✅ Wrote {count} entries to " ++ text).toList ↔
      IsInert pictures text.toList ∧ trailing text.toList ≤ 1) ∧
    ∀ configuration, withoutBlanks (configurationTextWith pictures configuration text).toList =
        withoutBlanks ("Node Configuration: " ++ text ++ tableText configuration).toList ↔
      IsInert pictures text.toList ∧ trailing text.toList ≠ 1 :=
  ⟨errorText_literal_iff gallery printable,
    fun count => writtenText_literal_iff gallery count printable,
    fun configuration => configurationText_literal_iff gallery configuration printable⟩

/-- A text with a tag, with backslashes and with a code that stands for no picture is shown as it
is. -/
theorem userText_literal_bracketed :
    withoutBlanks (errorText "[bold] \\[i] :y: \\\\").toList =
        withoutBlanks "Error: [bold] \\[i] :y: \\\\".toList ∧
      ∀ count, withoutBlanks (writtenText count "[bold] \\[i] :y: \\").toList =
        withoutBlanks (s!"✅ Wrote {count} entries to " ++ "[bold] \\[i] :y: \\").toList :=
  ⟨(userText_literal_iff Emoji.isGallery_known (List.all_eq_true.1 (by decide))).1.2
      (by decide +kernel),
    fun count => ((userText_literal_iff Emoji.isGallery_known
      (List.all_eq_true.1 (by decide))).2.1 count).2 (by decide +kernel)⟩

/-- A message whose emoji code is replaced. -/
theorem errorText_not_literal : ¬ ∀ message : String,
    (∀ c ∈ message.toList, Text.isPrintable c = true) →
      withoutBlanks (errorText message).toList = withoutBlanks ("Error: " ++ message).toList := by
  intro literal
  have shown := literal "[Errno 2] No such file or directory: ':x:'"
    (List.all_eq_true.1 (by decide))
  revert shown
  decide +kernel

end Roster.Terminal
