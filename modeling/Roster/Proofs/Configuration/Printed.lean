import Mathlib.Tactic.TFAE
import Roster.Proofs.Export.PlainText
import Roster.Proofs.Text.Decomposition

/-!
# Configurations told apart in print

A listing has a line that counts the entries and one line for each of them, and no descriptor
holds a newline. So the lines that are read off a listing are those that were written, and in each
of them the index ends where the first bracket closes. A plain text gives the descriptors back when
it is read. Two built configurations that look alike in print are therefore equal.
-/

namespace Roster

/-- The decimal digits of a number tell which one it is. -/
theorem toDigits_injective : Function.Injective (Nat.toDigits 10) := by
  intro number other same
  have value := congrArg (Nat.ofDigitChars 10 · 0) same
  simpa using value

theorem newline_not_mem_toDigits (number : Nat) : '\n' ∉ Nat.toDigits 10 number := by
  intro member
  cases Nat.isDigit_of_mem_toDigits (by decide) (by decide) member

namespace Entry

/-- The line of an entry in a listing. -/
def line (entry : Entry) : String := s!"  [{entry.index}] {entry.descriptor}"

theorem toList_line (entry : Entry) : entry.line.toList =
    "  [".toList ++ (Nat.toDigits 10 entry.index ++ ("] ".toList ++ entry.descriptor.toList)) := by
  simp only [line, toString, String.toList_append, Nat.toList_repr, List.append_assoc]

/-- An entry can be read off its line. -/
theorem line_injective : Function.Injective line := by
  intro entry other same
  have lists := congrArg String.toList same
  rw [toList_line, toList_line] at lists
  have areDigits : ∀ number, ∀ c ∈ Nat.toDigits 10 number, c.isDigit = true :=
    fun _ _ => Nat.isDigit_of_mem_toDigits (by decide) (by decide)
  -- The digits of an index end where the bracket is.
  obtain ⟨digits, behind⟩ := Text.eq_of_append_eq (areDigits _) (by simp) (areDigits _) (by simp)
    (List.append_cancel_left lists)
  have sameIndex : entry.index = other.index := toDigits_injective digits
  have sameDescriptor : entry.descriptor = other.descriptor :=
    String.toList_injective (List.append_cancel_left behind)
  obtain ⟨index, descriptor⟩ := entry
  obtain ⟨otherIndex, otherDescriptor⟩ := other
  rw [Entry.mk.injEq]
  exact ⟨sameIndex, sameDescriptor⟩

/-- In the line of an entry there is a newline only if there is one in its descriptor. -/
theorem newline_not_mem_line {entry : Entry} (inside : '\n' ∉ entry.descriptor.toList) :
    '\n' ∉ entry.line.toList := by
  rw [toList_line]
  simp [newline_not_mem_toDigits, inside]

end Entry

namespace Configuration

/-- What the entries are called where they are counted. -/
def noun (configuration : Configuration) : String :=
  if configuration.size == 1 then "entry" else "entries"

/-- The line of a listing that counts the entries. -/
def countLine (configuration : Configuration) : String :=
  s!"Node configuration ({configuration.size} {configuration.noun}):"

theorem newline_not_mem_countLine (configuration : Configuration) :
    '\n' ∉ configuration.countLine.toList := by
  have inFront : '\n' ∉ (toString "Node configuration (").toList := by decide
  have inSize : '\n' ∉ (toString configuration.size).toList := by
    rw [Nat.toString_eq_repr, Nat.toList_repr]
    exact newline_not_mem_toDigits configuration.size
  have inNoun : '\n' ∉ (toString configuration.noun).toList := by
    unfold noun
    split <;> decide
  unfold countLine
  simp only [String.toList_append, List.mem_append, not_or]
  exact ⟨⟨⟨⟨inFront, inSize⟩, by decide⟩, inNoun⟩, by decide⟩

theorem listing_eq (configuration : Configuration) : configuration.listing =
    "\n".intercalate (configuration.countLine :: configuration.entries.map Entry.line) :=
  rfl

/-- The lines of a listing are those that were written, if no descriptor holds a newline. -/
theorem splitOn_listing {configuration : Configuration}
    (inside : ∀ descriptor ∈ configuration.descriptors, '\n' ∉ descriptor.toList) :
    configuration.listing.toList.splitOn '\n' =
      (configuration.countLine :: configuration.entries.map Entry.line).map String.toList := by
  rw [listing_eq, String.toList_intercalate]
  refine List.splitOn_intercalate '\n' ?_ (by simp)
  intro line member
  obtain ⟨written, isWritten, rfl⟩ := List.mem_map.1 member
  rcases List.mem_cons.1 isWritten with rfl | isEntry
  · exact configuration.newline_not_mem_countLine
  · obtain ⟨entry, listed, rfl⟩ := List.mem_map.1 isEntry
    exact Entry.newline_not_mem_line (inside _ (List.mem_map_of_mem listed))

/-- Configurations with the same listing are equal, if no descriptor holds a newline. -/
theorem eq_of_listing_eq {left right : Configuration}
    (insideLeft : ∀ descriptor ∈ left.descriptors, '\n' ∉ descriptor.toList)
    (insideRight : ∀ descriptor ∈ right.descriptors, '\n' ∉ descriptor.toList)
    (same : left.listing = right.listing) : left = right := by
  have lines := splitOn_listing insideLeft
  rw [same, splitOn_listing insideRight, List.map_cons, List.map_cons] at lines
  obtain ⟨-, entryLines⟩ := List.cons.inj lines
  have entries : right.entries = left.entries :=
    List.map_injective_iff.2 Entry.line_injective
      (List.map_injective_iff.2 (fun _ _ => String.toList_injective) entryLines)
  cases left
  cases right
  exact congrArg Configuration.mk entries.symm

theorem Built.newline_not_mem {configuration : Configuration} (built : configuration.Built) :
    ∀ descriptor ∈ configuration.descriptors, '\n' ∉ descriptor.toList :=
  fun descriptor listed member => by cases (built.isDescriptor descriptor listed).noBlank _ member

/-- The descriptors of a built configuration can be read off its plain text. -/
theorem Built.plainDescriptors_toText {configuration : Configuration} (built : configuration.Built)
    {content : List Char} (exported : configuration.toText = .ok content) :
    plainDescriptors content = configuration.descriptors := by
  obtain ⟨noComment, rfl⟩ := toText_eq_ok exported
  exact plainDescriptors_flatMap built.isDescriptor noComment

/-- Two built configurations are equal exactly if they have the same descriptors, and exactly if
they have the same listing. Unless plain text is refused for one of them, they are also equal
exactly if they have the same plain text. -/
theorem printed_alike_tfae {left right : Configuration} (builtLeft : left.Built)
    (builtRight : right.Built) :
    [left = right, left.descriptors = right.descriptors, left.listing = right.listing].TFAE ∧
      ∀ leftText rightText, left.toText = .ok leftText → right.toText = .ok rightText →
        (left = right ↔ leftText = rightText) := by
  constructor
  · tfae_have 1 ↔ 2 := ⟨congrArg descriptors, builtLeft.eq_of_descriptors builtRight⟩
    tfae_have 1 ↔ 3 :=
      ⟨congrArg listing, eq_of_listing_eq builtLeft.newline_not_mem builtRight.newline_not_mem⟩
    tfae_finish
  · intro leftText rightText exportedLeft exportedRight
    constructor
    · rintro rfl
      exact Except.ok.inj (exportedLeft.symm.trans exportedRight)
    · rintro rfl
      apply builtLeft.eq_of_descriptors builtRight
      rw [← builtLeft.plainDescriptors_toText exportedLeft,
        builtRight.plainDescriptors_toText exportedRight]

/-- A first descriptor that goes on like the line of a second one. -/
def bracketedFirst : Configuration :=
  { entries := [{ index := 0, descriptor := "a[1]b" }, { index := 1, descriptor := "c" }] }

/-- The same characters with a second descriptor that begins like a line of its own. -/
def bracketedSecond : Configuration :=
  { entries := [{ index := 0, descriptor := "a" }, { index := 1, descriptor := "[1]bc" }] }

/-- Descriptors that imitate the numbers of a listing do not make two listings alike. -/
theorem printed_alike_tfae_bracketed :
    bracketedFirst.Built ∧ bracketedSecond.Built ∧
      bracketedFirst.listing ≠ bracketedSecond.listing ∧
      ∃ firstText secondText, bracketedFirst.toText = .ok firstText ∧
        bracketedSecond.toText = .ok secondText ∧ firstText ≠ secondText := by
  have builtFirst : bracketedFirst.Built := .add (.add .empty "a[1]b" rfl) "c" rfl
  have builtSecond : bracketedSecond.Built := .add (.add .empty "a" rfl) "[1]bc" rfl
  have differ : bracketedFirst ≠ bracketedSecond := by decide
  obtain ⟨alike, texts⟩ := printed_alike_tfae builtFirst builtSecond
  refine ⟨builtFirst, builtSecond, fun same => differ ((alike.out 0 2).2 same), _, _, rfl, rfl, ?_⟩
  exact fun same => differ ((texts _ _ rfl rfl).2 same)

end Configuration

end Roster
