import Roster.Proofs.CommandLine.Ending
import Roster.Proofs.CommandLine.PlainWords
import Roster.Proofs.Source.Listing
import Roster.Proofs.Terminal.Legible
import Roster.Proofs.Terminal.TableLines
import Roster.Proofs.Yaml.Portable

/-!
# The table that is shown

Descriptors that are joined with spaces and given as the source are shown in a table: each has a
row of its own with its position, in their order. No descriptor is cut or interpreted, however it
looks, and the table fits on the screen.
-/

namespace Roster.CommandLine

open Roster.Storage (Store)
open Roster.Terminal (IsTable FitsTable linesOfTable screenWidth textOfLines cells)
open Roster.Text (withoutBlanks)

/-- Descriptors that can be shown in a table as they are: visible characters of ASCII, at most
sixty of them in each, and no hyphen in front of the first. -/
structure AreShowable (descriptors : List String) : Prop where
  nonempty : descriptors ≠ []
  few : descriptors.length < 10 ^ 10
  sized : ∀ descriptor ∈ descriptors, 1 ≤ descriptor.length ∧ descriptor.length ≤ 60
  visible : ∀ descriptor ∈ descriptors, ∀ c ∈ descriptor.toList, 0x21 ≤ c.toNat ∧ c.toNat ≤ 0x7E
  noHyphen : ∀ first ∈ descriptors.head?, IsPlain first

namespace AreShowable

variable {descriptors : List String}

theorem isDescriptor (showable : AreShowable descriptors) :
    ∀ descriptor ∈ descriptors, IsDescriptor descriptor := by
  intro descriptor member
  constructor
  · rintro none
    have positive := (showable.sized descriptor member).1
    rw [← String.length_toList, none] at positive
    exact absurd positive (by decide)
  · intro c isInside
    have range := showable.visible descriptor member c isInside
    exact Yaml.isBlank_of_visibleAscii range.1 range.2

theorem fitsTable (showable : AreShowable descriptors) :
    ∀ entry ∈ descriptors.mapIdx Entry.mk, FitsTable entry := by
  intro entry member
  obtain ⟨index, inside, rfl⟩ := List.mem_mapIdx.1 member
  have isListed := List.getElem_mem inside
  exact
    { few := Nat.lt_trans inside showable.few
      visible := showable.visible _ isListed
      short := String.length_toList ▸ (showable.sized _ isListed).2 }

/-- No hyphen stands in front of showable descriptors with spaces in between. -/
theorem isPlain_intercalate (showable : AreShowable descriptors) :
    IsPlain (" ".intercalate descriptors) := by
  obtain ⟨first, others, rfl⟩ := List.exists_cons_of_ne_nil showable.nonempty
  exact Roster.CommandLine.isPlain_intercalate
    (showable.isDescriptor first List.mem_cons_self).nonempty (showable.noHyphen first rfl) others

end AreShowable

/-- The source of a command that is given nothing else. -/
theorem ofArguments_source (command : Command) {source : String} (plain : IsPlain source) :
    Invocation.ofArguments [command.name, source] =
      .ok { options := { source := some source }, command := some command } := by
  have words (scope : Scope) : wordsOfArguments scope [source] =
      .ok [{ text := source, role := .plain }] :=
    wordsOfArguments_cons plain.ne_separator (roleOf_of_isPlain scope plain) rfl
  refine ofArguments_command (words .program) ?_
  rw [readScope, words]
  rfl

/-- A run that is asked for a table shows the configuration that is read, and leaves the store
alone. -/
theorem run_shows_table (pictures : Terminal.Emoji.Pictures) {store : Store}
    {arguments : List String} {options : Options}
    (asked : Invocation.ofArguments arguments = .ok { options, command := some .showTable })
    {reading : Reading} {label : String}
    (read : options.read store = .ok (reading, label)) :
    (run pictures store arguments).ending = .exit 0 ∧
      (run pictures store arguments).store = store ∧
      (run pictures store arguments).output =
        Terminal.configurationTextWith pictures reading.configuration label := by
  simp [run_of_asked asked, run_of_ok read, Command.perform, CommandResult.outcome]

/-- Lines one behind the other, as texts. -/
theorem textOfLines_append (front behind : List (List Char)) :
    textOfLines (front ++ behind) = textOfLines front ++ textOfLines behind := by
  rw [textOfLines, List.flatMap_append, String.ofList_append]
  rfl

/-- Below the table of a configuration with entries stands their number. -/
theorem summary_eq {configuration : Configuration} (nonempty : configuration.entries ≠ []) :
    Terminal.summary configuration = s!"Total entries: {configuration.size}\n" := by
  rw [Terminal.summary, if_neg (by simpa using nonempty)]

/-- The title above the table of a source. -/
theorem withoutBlanks_sourceTitle (pictures : Terminal.Emoji.Pictures) (entries : List Entry) :
    withoutBlanks (Terminal.titleLines
        (Terminal.configurationTitle pictures "string") entries).flatten =
      "NodeConfiguration:string".toList := by
  have title : Terminal.configurationTitle pictures "string" =
      "Node Configuration: string".toList := rfl
  have legible : Terminal.IsLegible "Node Configuration: string".toList :=
    .of_isPrintable (List.all_eq_true.1 (by decide))
  have shown := Terminal.withoutBlanks_titleLines legible.toIsPart entries
  rw [Terminal.withoutBlanks_textOfLines] at shown
  rw [title, shown]
  decide

/-- Descriptors joined with spaces are shown in a table with one row for each of them, in their
order, with their positions and their texts as they are. All lines of the table are equally wide
and fit on the screen, and their number is told below it. -/
theorem run_show_source (pictures : Terminal.Emoji.Pictures) (store : Store)
    {descriptors : List String} (showable : AreShowable descriptors) :
    ∃ title columns header rows,
      (run pictures store ["show", " ".intercalate descriptors]).ending = .exit 0 ∧
      (run pictures store ["show", " ".intercalate descriptors]).output =
        textOfLines (title ++ linesOfTable columns header rows) ++
          s!"Total entries: {descriptors.length}\n" ∧
      withoutBlanks title.flatten = "NodeConfiguration:string".toList ∧
      IsTable descriptors columns header rows ∧ columns.total ≤ 80 ∧
      ∀ line ∈ linesOfTable columns header rows,
        cells line = columns.total ∧ line.length = columns.total := by
  obtain ⟨configuration, added, built, same⟩ :=
    Configuration.exists_ofDescriptors showable.isDescriptor
  have read : readText (" ".intercalate descriptors) =
      .ok (Reading.counted configuration "string source") := by
    rw [readText_intercalate showable.isDescriptor, added]
    rfl
  have entries : configuration.entries = descriptors.mapIdx Entry.mk := by
    rw [built.entries_eq, same]
  have size : configuration.size = descriptors.length := by
    rw [Configuration.size, entries, List.length_mapIdx]
  have nonempty : configuration.entries ≠ [] := by
    simpa [entries] using showable.nonempty
  have asked := ofArguments_source .showTable showable.isPlain_intercalate
  have readSource : Options.read { source := some (" ".intercalate descriptors) } store =
      .ok (Reading.counted configuration "string source", "string") := by
    simp [Options.read, read, Except.mapError, Except.map]
  obtain ⟨ended, -, shown⟩ := run_shows_table pictures asked readSource
  obtain ⟨columns, header, rows, table, isTable, onScreen, wide⟩ :=
    Terminal.exists_isTable showable.fitsTable
  refine ⟨_, columns, header, rows, ended, ?_,
    withoutBlanks_sourceTitle pictures configuration.entries, isTable, onScreen, wide⟩
  rw [textOfLines_append, ← table, ← entries, ← size, ← summary_eq nonempty, String.append_assoc]
  exact shown

/-- Descriptors that look like a tag, a code for a picture and an escape. -/
def markupDescriptors : List String := ["[bold]a", ":x:", "\\[/i]", ":x:"]

theorem run_show_source_markup :
    AreShowable markupDescriptors ∧ ∃ title columns header rows,
      (run Terminal.Emoji.known .empty ["show", "[bold]a :x: \\[/i] :x:"]).ending = .exit 0 ∧
      (run Terminal.Emoji.known .empty ["show", "[bold]a :x: \\[/i] :x:"]).output =
        textOfLines (title ++ linesOfTable columns header rows) ++ "Total entries: 4\n" ∧
      withoutBlanks title.flatten = "NodeConfiguration:string".toList ∧
      IsTable markupDescriptors columns header rows ∧ columns.total ≤ 80 ∧
      ∀ line ∈ linesOfTable columns header rows,
        cells line = columns.total ∧ line.length = columns.total := by
  have showable : AreShowable markupDescriptors :=
    { nonempty := List.cons_ne_nil _ _
      few := by decide
      sized := by decide +kernel
      visible := by simp [markupDescriptors]
      noHyphen := by simp [markupDescriptors, IsPlain] }
  have joined : " ".intercalate markupDescriptors = "[bold]a :x: \\[/i] :x:" := by decide +kernel
  have counted : s!"Total entries: {markupDescriptors.length}\n" = "Total entries: 4\n" := by
    decide +kernel
  have shown := run_show_source Terminal.Emoji.known .empty showable
  rw [joined, counted] at shown
  exact ⟨showable, shown⟩

end Roster.CommandLine
