import Roster.Proofs.Configuration.Refusal
import Roster.Proofs.Source.Built
import Roster.Source.Reader

/-!
# Attempts to add

What a configuration holds after any number of attempts to add to it, some of which may have
failed, wherever the attempts began. It holds what was accepted, in order and each at its
position, for a refused datum leaves no trace. So a position finds the entry that carries it.
-/

namespace Roster

open Roster.Storage (Store)

/-- Whatever a reader gives was built. -/
theorem Reader.gives_built_read (reader : Reader) (store : Store) :
    Gives (reader.read store).1 Reading.IsBuilt := by
  cases reader with
  | text source =>
      cases source with
      | text source => exact gives_built_readText source
      | _ => exact Gives.error _ _
  | arguments items => exact gives_built_readArguments items
  | plainFile path => exact gives_built_readPlainFile store path
  | yamlFile path version => exact gives_built_readYamlFile version store path

namespace Configuration

/-- The configuration after an attempt to add a datum. A refused datum leaves it as it is. -/
def attempt (configuration : Configuration) (datum : Datum) : Configuration :=
  match configuration.addDatum datum with
  | .ok next => next
  | .error _ => configuration

/-- The configuration after attempts to add data one after another. -/
def attemptAll (configuration : Configuration) (data : List Datum) : Configuration :=
  data.foldl attempt configuration

/-- Where attempts begin: at the empty configuration, or at one that some reader gave. -/
inductive IsOrigin : Configuration → Prop where
  | empty : IsOrigin .empty
  | read {reader : Reader} {store : Store} {reading : Reading}
      (given : (reader.read store).1 = .ok reading) : IsOrigin reading.configuration

theorem IsOrigin.built {configuration : Configuration} (origin : configuration.IsOrigin) :
    configuration.Built := by
  cases origin with
  | empty => exact .empty
  | read given => exact Reader.gives_built_read _ _ _ given

/-- One more attempt behind all others. -/
theorem attemptAll_concat (configuration : Configuration) (data : List Datum) (datum : Datum) :
    configuration.attemptAll (data ++ [datum]) = (configuration.attemptAll data).attempt datum := by
  exact List.foldl_append

/-- An attempt adds its datum if that is a descriptor. -/
theorem Built.attempt {configuration : Configuration} (built : configuration.Built)
    (datum : Datum) :
    (configuration.attempt datum).Built ∧ (configuration.attempt datum).descriptors =
      configuration.descriptors ++ datum.descriptor?.toList := by
  unfold Configuration.attempt
  split
  · rename_i next added
    obtain ⟨descriptor, isDescriptor, rfl⟩ := addDatum_eq_ok_iff.1 added
    refine ⟨gives_built_addDatum built datum _ added, ?_⟩
    simp [isDescriptor, descriptors, nextEntry]
  · rename_i cause failed
    refine ⟨built, ?_⟩
    rw [Datum.descriptor?_eq_none_iff.2 ⟨cause, addDatum_eq_error_iff.1 failed⟩]
    simp

/-- Attempts add all that are descriptors, in order. -/
theorem Built.attemptAll {configuration : Configuration} (built : configuration.Built)
    (data : List Datum) :
    (configuration.attemptAll data).Built ∧ (configuration.attemptAll data).descriptors =
      configuration.descriptors ++ data.filterMap Datum.descriptor? := by
  induction data generalizing configuration with
  | nil => exact ⟨built, by simp [Configuration.attemptAll]⟩
  | cons datum others inductionHypothesis =>
      obtain ⟨builtNext, first⟩ := built.attempt datum
      obtain ⟨builtLast, rest⟩ := inductionHypothesis builtNext
      refine ⟨builtLast, ?_⟩
      rw [Configuration.attemptAll, List.foldl_cons, ← Configuration.attemptAll, rest, first]
      cases descriptor : datum.descriptor? <;> simp [descriptor]

section Positions

variable {configuration : Configuration}

/-- An entry of a built configuration carries the number of its place. -/
theorem Built.index_of_getElem? (built : configuration.Built) {place : Nat} {entry : Entry}
    (found : configuration.entries[place]? = some entry) : entry.index = place := by
  rw [built.entries_eq, List.getElem?_mapIdx] at found
  obtain ⟨descriptor, -, rfl⟩ := Option.map_eq_some_iff.1 found
  rfl

/-- The place that a position means: a negative one counts from the end. -/
def placeOf (configuration : Configuration) (position : Int) : Int :=
  if position < 0 then configuration.size + position else position

/-- A position within bounds finds the entry at its place. -/
theorem entryAt?_eq_getElem? {position : Int} (low : -configuration.size ≤ position) :
    configuration.entryAt? position =
      configuration.entries[(configuration.placeOf position).toNat]? := by
  unfold entryAt? placeOf
  split
  · rw [if_pos (by omega), Int.add_comm]
  · rfl

/-- A position out of bounds finds nothing. -/
theorem entryAt?_eq_none {position : Int}
    (outside : ¬(-configuration.size ≤ position ∧ position < configuration.size)) :
    configuration.entryAt? position = none := by
  unfold entryAt?
  split
  · rw [if_neg (by omega)]
  · rw [List.getElem?_eq_none_iff]
    have size : configuration.size = configuration.entries.length := rfl
    omega

/-- In a built configuration a position within bounds finds the entry that carries the number
of its place. -/
theorem Built.exists_entryAt? (built : configuration.Built) {position : Int}
    (low : -configuration.size ≤ position) (high : position < configuration.size) :
    ∃ entry ∈ configuration.entries, entry.index = configuration.placeOf position ∧
      configuration.entryAt? position = some entry := by
  have size : configuration.size = configuration.entries.length := rfl
  have natural : 0 ≤ configuration.placeOf position := by
    unfold placeOf
    omega
  have inside : (configuration.placeOf position).toNat < configuration.entries.length := by
    unfold placeOf
    omega
  have found := List.getElem?_eq_getElem inside
  refine ⟨_, List.getElem_mem inside, ?_, (entryAt?_eq_getElem? low).trans found⟩
  rw [built.index_of_getElem? found, Int.toNat_of_nonneg natural]

/-- A position finds the same as a datum, unless it is too large for the machine. -/
theorem entryAtDatum_int {position : Int} (low : -positionLimit ≤ position)
    (high : position < positionLimit) :
    configuration.entryAtDatum (.int position) =
      (configuration.entryAt? position).elim (.error .outOfRange) .ok := by
  have fits : (position < -positionLimit || positionLimit <= position) = false := by
    simp [low, high]
  simp only [entryAtDatum, fits, Bool.false_eq_true, if_false]

end Positions

/-- An error about a number that is no position of an entry. -/
inductive IsRangeError : PositionError → Prop where
  | outOfRange : IsRangeError .outOfRange
  | tooLarge : IsRangeError .tooLarge

/-- A position out of bounds is refused as such. -/
theorem exists_rangeError {configuration : Configuration} {position : Int}
    (outside : ¬(-configuration.size ≤ position ∧ position < configuration.size)) :
    ∃ error, IsRangeError error ∧ configuration.entryAtDatum (.int position) = .error error := by
  by_cases fits : -positionLimit ≤ position ∧ position < positionLimit
  · refine ⟨.outOfRange, .outOfRange, ?_⟩
    rw [entryAtDatum_int fits.1 fits.2, entryAt?_eq_none outside]
    rfl
  · refine ⟨.tooLarge, .tooLarge, ?_⟩
    have large : (position < -positionLimit || positionLimit <= position) = true := by
      simpa [Classical.or_iff_not_imp_left] using fits
    simp only [entryAtDatum, large, if_true]

/-- After any attempts the entries are those of the beginning and what was accepted since, in
order, each with the number of its place. All of them are descriptors. An attempt either adds
its datum, which is a descriptor then, or is refused and changes nothing. So a position within
bounds finds the entry that carries the number of its place, as long as the machine can count
the entries, and any other is refused. -/
theorem attempts_keep_numbered {start : Configuration} (origin : start.IsOrigin)
    (data : List Datum) :
    (start.attemptAll data).entries =
        (start.descriptors ++ data.filterMap Datum.descriptor?).mapIdx Entry.mk ∧
      (∀ descriptor ∈ (start.attemptAll data).descriptors, IsDescriptor descriptor) ∧
      (∀ datum next, (start.attemptAll data).addDatum datum = .ok next →
        datum.descriptor?.isSome ∧ start.attemptAll (data ++ [datum]) = next) ∧
      (∀ datum cause, (start.attemptAll data).addDatum datum = .error cause →
        datum.descriptor? = none ∧
          start.attemptAll (data ++ [datum]) = start.attemptAll data) ∧
      (∀ position : Int, -(start.attemptAll data).size ≤ position →
        position < (start.attemptAll data).size →
        ∃ entry ∈ (start.attemptAll data).entries,
          entry.index = (start.attemptAll data).placeOf position ∧
          (start.attemptAll data).entryAt? position = some entry ∧
          ((start.attemptAll data).size ≤ positionLimit →
            (start.attemptAll data).entryAtDatum (.int position) = .ok entry)) ∧
      (∀ position : Int, ¬(-(start.attemptAll data).size ≤ position ∧
        position < (start.attemptAll data).size) →
        ∃ error, IsRangeError error ∧
          (start.attemptAll data).entryAtDatum (.int position) = .error error) := by
  obtain ⟨built, descriptors⟩ := origin.built.attemptAll data
  refine ⟨?_, built.isDescriptor, ?_, ?_, ?_, fun position outside => exists_rangeError outside⟩
  · rw [built.entries_eq, descriptors]
  · intro datum next added
    obtain ⟨descriptor, isDescriptor, -⟩ := addDatum_eq_ok_iff.1 added
    rw [attemptAll_concat, Configuration.attempt, added, isDescriptor]
    exact ⟨rfl, rfl⟩
  · intro datum cause refused
    rw [attemptAll_concat, Configuration.attempt, refused]
    exact ⟨Datum.descriptor?_eq_none_iff.2 ⟨cause, addDatum_eq_error_iff.1 refused⟩, rfl⟩
  · intro position low high
    obtain ⟨entry, member, index, found⟩ := built.exists_entryAt? low high
    refine ⟨entry, member, index, found, fun counted => ?_⟩
    rw [entryAtDatum_int (by omega) (by omega), found]
    rfl

/-- Two words that were read. -/
def readPair : Configuration :=
  { entries := [{ index := 0, descriptor := "a" }, { index := 1, descriptor := "b" }] }

/-- Data of which only the first and the last are descriptors. -/
def mixedData : List Datum := [.text "c", .null, .text "", .text "d e", .int 1, .text "a"]

/-- Of mixed data two are added to the words that were read, and the last position finds the
last of them. -/
theorem attempts_keep_numbered_mixed :
    readPair.IsOrigin ∧
      (readPair.attemptAll mixedData).entries = [⟨0, "a"⟩, ⟨1, "b"⟩, ⟨2, "c"⟩, ⟨3, "a"⟩] ∧
      (readPair.attemptAll mixedData).entryAtDatum (.int (-1)) = .ok ⟨3, "a"⟩ := by
  have added : ofDescriptors (wordsOf "a b".toList) = .ok readPair := by decide +kernel
  have given : ((Reader.text (.text "a b")).read .empty).1 =
      .ok (Reading.counted readPair "string source") := by
    simp only [Reader.read, readText, countedReading, added]
  have origin : readPair.IsOrigin := .read given
  obtain ⟨entries, -, -, -, found, -⟩ := attempts_keep_numbered origin mixedData
  have accepted : mixedData.filterMap Datum.descriptor? = ["c", "a"] := by decide +kernel
  have same : (readPair.attemptAll mixedData).entries =
      [⟨0, "a"⟩, ⟨1, "b"⟩, ⟨2, "c"⟩, ⟨3, "a"⟩] := by
    rw [entries, accepted]
    rfl
  have size : (readPair.attemptAll mixedData).size = 4 := congrArg List.length same
  obtain ⟨entry, -, -, atPlace, atDatum⟩ := found (-1) (by omega) (by omega)
  refine ⟨origin, same, ?_⟩
  rw [atDatum (by rw [size]; decide)]
  rw [entryAt?_eq_getElem? (by omega), same, placeOf, size] at atPlace
  exact congrArg Except.ok (Option.some.inj atPlace).symm

end Configuration

end Roster
