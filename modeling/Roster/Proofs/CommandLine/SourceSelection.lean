import Roster.Proofs.CommandLine.Usage
import Roster.Source.Reader

/-!
# Selecting the source

The program looks for the sources one after another and reads from the first one that is
given. Where at most one is given, any other order selects the same reader.
-/

namespace Roster.CommandLine

open Roster.Storage (Store)

namespace Options

/-- The reader of a source that is given, with its label. -/
def reader? (options : Options) : Parameter → Option (Reader × String)
  | .file => options.file.map fun path => (.plainFile (.ofString path), path)
  | .yaml => options.yaml.map fun path => (.ofYamlFile (.ofString path), path)
  | .nodes => options.nodes.map fun nodes => (.arguments (nodes.map Datum.text), "arguments")
  | .source => options.source.map fun text => (.text (.text text), "string")
  | _ => none

/-- The reader that is selected if the sources are looked for in an order. -/
def select (options : Options) (order : List Parameter) : Option (Reader × String) :=
  order.findSome? options.reader?

/-- The order in which the program looks for the sources. -/
def readingOrder : List Parameter := [.file, .yaml, .nodes, .source]

theorem readingOrder_perm : readingOrder.Perm Parameter.sources := by
  decide

/-- What is read if the sources are looked for in an order, with its label. -/
def readIn (options : Options) (order : List Parameter) (store : Store) :
    Except CommandError (Reading × String) :=
  match options.select order with
  | none => .error .noSource
  | some (reader, label) => do
    let reading <- (reader.read store).1.mapError CommandError.read
    return (reading, label)

/-- The program reads with the reader that it selects. -/
theorem read_eq_readIn (options : Options) (store : Store) :
    options.read store = options.readIn readingOrder store := by
  have labelled (label : String) (reading : Except ReadError Reading) :
      ((reading.mapError CommandError.read).map fun reading => (reading, label)) = do
        let reading <- reading.mapError CommandError.read
        return (reading, label) := by
    cases reading <;> rfl
  obtain ⟨_, source, file, yaml, nodes, _, _⟩ := options
  match file, yaml, nodes, source with
  | some path, _, _, _ => exact labelled path _
  | none, some path, _, _ => exact labelled path _
  | none, none, some nodes, _ => exact labelled "arguments" _
  | none, none, none, some text => exact labelled "string" _
  | none, none, none, none => rfl

variable {options : Options}

/-- There is a reader for exactly the sources that are given. -/
theorem isSome_reader? (options : Options) (parameter : Parameter) :
    (options.reader? parameter).isSome = options.gives parameter := by
  cases parameter <;> simp [reader?, gives]

/-- In any order of the sources, the reader of the only one that is given is selected. -/
theorem IsExclusive.select_eq (exclusive : options.IsExclusive) {order : List Parameter}
    (isOrder : order.Perm Parameter.sources) {parameter : Parameter} {reader : Reader × String}
    (given : options.reader? parameter = some reader) : options.select order = some reader := by
  have gives : options.gives parameter = true := by rw [← isSome_reader?, given, Option.isSome_some]
  have member : parameter ∈ order := isOrder.mem_iff.2 (mem_sources_of_gives gives)
  have found : (order.findSome? options.reader?).isSome = true :=
    List.findSome?_isSome_iff.2 ⟨parameter, member, by rw [given, Option.isSome_some]⟩
  obtain ⟨other, isFound⟩ := Option.isSome_iff_exists.1 found
  obtain ⟨first, -, isFirst⟩ := List.exists_of_findSome?_eq_some isFound
  have givesFirst : options.gives first = true := by
    rw [← isSome_reader?, isFirst, Option.isSome_some]
  obtain rfl := exclusive first parameter givesFirst gives
  obtain rfl := Option.some.inj (isFirst.symm.trans given)
  exact isFound

/-- In any order of the sources, none is selected exactly if none is given. -/
theorem select_eq_none_iff (options : Options) {order : List Parameter}
    (isOrder : order.Perm Parameter.sources) :
    options.select order = none ↔ ∀ parameter, options.gives parameter = false := by
  rw [select, List.findSome?_eq_none_iff]
  constructor
  · intro unselected parameter
    by_contra given
    rw [Bool.not_eq_false] at given
    have member : parameter ∈ order := isOrder.mem_iff.2 (mem_sources_of_gives given)
    rw [← isSome_reader?, unselected parameter member] at given
    cases given
  · intro noneGiven parameter _
    rw [← Option.not_isSome_iff_eq_none, isSome_reader?, noneGiven parameter]
    exact Bool.false_ne_true

/-- The order in which the sources are looked for does not matter if there is only one. -/
theorem IsExclusive.select_perm (exclusive : options.IsExclusive) {order : List Parameter}
    (isOrder : order.Perm Parameter.sources) :
    options.select order = options.select readingOrder := by
  by_cases given : ∃ parameter, options.gives parameter = true
  · obtain ⟨parameter, gives⟩ := given
    rw [← isSome_reader?] at gives
    obtain ⟨reader, isReader⟩ := Option.isSome_iff_exists.1 gives
    rw [exclusive.select_eq isOrder isReader, exclusive.select_eq readingOrder_perm isReader]
  · have noneGiven : ∀ parameter, options.gives parameter = false := by simpa using given
    rw [(options.select_eq_none_iff isOrder).2 noneGiven,
      (options.select_eq_none_iff readingOrder_perm).2 noneGiven]

/-- What is read does not depend on the order either. -/
theorem IsExclusive.readIn_perm (exclusive : options.IsExclusive) {order : List Parameter}
    (isOrder : order.Perm Parameter.sources) (store : Store) :
    options.readIn order store = options.read store := by
  rw [read_eq_readIn, readIn, readIn, exclusive.select_perm isOrder]

/-- Reading fails for want of a source exactly if none is given. -/
theorem read_eq_noSource_iff (options : Options) (store : Store) :
    options.read store = .error .noSource ↔ ∀ parameter, options.gives parameter = false := by
  rw [← options.select_eq_none_iff readingOrder_perm, read_eq_readIn, readIn]
  cases options.select readingOrder with
  | none => simp
  | some selected =>
      obtain ⟨reader, label⟩ := selected
      cases reading : (reader.read store).1 <;>
        simp [reading, Except.mapError, bind, Except.bind, pure, Except.pure]

end Options

variable {pictures : Terminal.Emoji.Pictures} {command : Command} {store : Store}
  {options : Options}

/-- Whatever fails behind the reading of a source, it is not for want of one. -/
theorem shown_perform_ne_noSource {configuration : Configuration} {label : String} :
    (command.perform pictures store options configuration label).shown ≠ .error .noSource := by
  intro failed
  unfold Command.perform at failed
  split at failed
  · cases failed
  · obtain ⟨cause, -, same⟩ := mapError_eq_error.1 (map_eq_error.1 failed)
    cases same
  · split at failed <;> cases failed

theorem shown_performWide_ne_noSource {configuration : WideConfiguration} :
    (command.performWide pictures store options configuration).shown ≠ .error .noSource := by
  intro failed
  unfold Command.performWide at failed
  split at failed
  · cases failed
  · rcases bind_eq_error.1 failed with refused | ⟨codes, -, unprintable⟩
    · obtain ⟨cause, -, same⟩ := mapError_eq_error.1 refused
      cases same
    · unfold shownCodes at unprintable
      split at unprintable <;> cases unprintable
  · split at failed <;> cases failed

/-- A command fails for want of a source exactly if none is given. -/
theorem shown_eq_noSource_iff (pictures : Terminal.Emoji.Pictures) (command : Command)
    (store : Store) (options : Options) :
    (command.run pictures store options).shown = .error .noSource ↔
      ∀ parameter, options.gives parameter = false := by
  rw [← options.read_eq_noSource_iff store, Command.run]
  split
  · rename_i reading halved
    simp [halved, shown_performWide_ne_noSource]
  · rename_i error failed
    simp [failed]
  · rename_i reading label read
    simp [read, shown_perform_ne_noSource]

end Roster.CommandLine
