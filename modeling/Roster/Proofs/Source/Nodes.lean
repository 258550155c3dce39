import Roster.Proofs.Configuration.Wide
import Roster.Proofs.Yaml.Meaning
import Roster.Source

/-!
# The nodes of a document

The nodes of a document are added one after another to a wide configuration, and if none of
them holds a half the configuration that was meant is read. Whatever is read is the
configuration of its nodes.
-/

namespace Roster

open Roster.Storage (Path Store)
open Roster.Text (Wide)
open Roster.Yaml (Value)

/-- The nodes of a document are added one after another. -/
theorem readDocument_nodes (path : Path) {entries : List (Yaml.Key × Value)} {items : List Value}
    (areNodes : entries.lookup (.text nodesKey) = some (.sequence items)) :
    readDocument path (some (.mapping entries)) =
      items.foldlM (addNode path) WideConfiguration.empty >>= nodesReading path.toString := by
  rw [readDocument, areNodes]

theorem gives_built_addNode (path : Path) {configuration : WideConfiguration}
    (built : configuration.Built) (item : Value) :
    Gives (addNode path configuration item) WideConfiguration.Built := by
  cases item with
  | text descriptor =>
      have gives : Gives (configuration.add descriptor) WideConfiguration.Built :=
        fun _ added => built.add descriptor added
      exact gives.mapError _
  | _ => exact Gives.error _ _

/-- Nodes are added to the empty configuration, so what they give is built. -/
theorem gives_built_nodes (path : Path) (items : List Value) :
    Gives (items.foldlM (addNode path) WideConfiguration.empty) WideConfiguration.Built :=
  Gives.foldlM .empty fun _ built item => gives_built_addNode path built item

/-- Only texts are added, and they are the descriptors. -/
theorem exists_of_foldlM_addNode {path : Path} {configuration result : WideConfiguration}
    {items : List Value} (added : items.foldlM (addNode path) configuration = .ok result) :
    ∃ descriptors : List Wide, items = descriptors.map Value.text ∧
      result.descriptors = configuration.descriptors ++ descriptors := by
  induction items generalizing configuration with
  | nil =>
      obtain rfl := Except.ok.inj added
      exact ⟨[], rfl, (List.append_nil _).symm⟩
  | cons item others inductionHypothesis =>
      rw [List.foldlM_cons] at added
      obtain ⟨next, first, rest⟩ := bind_eq_ok.1 added
      obtain ⟨descriptors, rfl, behind⟩ := inductionHypothesis rest
      cases item with
      | text descriptor =>
          obtain ⟨-, rfl⟩ := WideConfiguration.add_eq_ok_iff.1 (mapError_eq_ok.1 first)
          exact ⟨descriptor :: descriptors, rfl, by rw [behind, List.append_assoc]; rfl⟩
      | null => cases first
      | sequence items => cases first
      | mapping entries => cases first

/-- Nodes that are strings are added as descriptors. -/
theorem foldlM_addNode (path : Path) {configuration result : Configuration}
    {descriptors : List String} (added : configuration.addAll descriptors = .ok result) :
    (descriptors.map Value.string).foldlM (addNode path) configuration.wide = .ok result.wide := by
  induction descriptors generalizing configuration with
  | nil => exact congrArg (fun found => Except.ok found.wide) (Except.ok.inj added)
  | cons descriptor others inductionHypothesis =>
      unfold Configuration.addAll at added
      rw [List.foldlM_cons] at added
      obtain ⟨next, first, rest⟩ := bind_eq_ok.1 added
      rw [List.map_cons, List.foldlM_cons, addNode, Configuration.wide_add first]
      exact inductionHypothesis rest

/-- Nodes that are those of a built configuration are read as the configuration. -/
theorem nodesReading_wide {configuration : Configuration} (built : configuration.Built)
    (origin : String) :
    nodesReading origin configuration.wide = .ok (Reading.counted configuration origin) := by
  have noHalf : ¬configuration.wide.isHalved = true := by
    rw [configuration.isHalved_wide]
    exact Bool.false_ne_true
  rw [nodesReading, if_neg noHalf, configuration.strings_wide, built.ofDescriptors_descriptors]
  rfl

/-- A document whose nodes are the descriptors of a built configuration is read as the
configuration. -/
theorem readDocument_of_nodes (path : Path) {configuration : Configuration}
    (built : configuration.Built) {entries : List (Yaml.Key × Value)}
    (areNodes : entries.lookup (.text nodesKey) =
      some (.sequence (configuration.descriptors.map .string))) :
    readDocument path (some (.mapping entries)) =
      .ok (Reading.counted configuration path.toString) := by
  have added : (configuration.descriptors.map Value.string).foldlM (addNode path)
      WideConfiguration.empty = .ok configuration.wide :=
    foldlM_addNode path built.ofDescriptors_descriptors
  rw [readDocument_nodes path areNodes, added]
  exact nodesReading_wide built path.toString

/-- What is read of nodes is the configuration that they are. -/
theorem wide_of_nodesReading {nodes : WideConfiguration} (built : nodes.Built) {origin : String}
    {reading : Reading} (read : nodesReading origin nodes = .ok reading) :
    reading.configuration.wide = nodes := by
  cases halved : nodes.isHalved with
  | true =>
      rw [nodesReading, if_pos halved] at read
      cases read
  | false =>
      obtain ⟨narrow, builtNarrow, rfl, -⟩ := built.exists_wide halved
      rw [nodesReading_wide builtNarrow] at read
      obtain rfl := Except.ok.inj read
      rfl

end Roster
