import Mathlib.Data.List.Forall2
import Roster.Yaml.Document

/-!
# What nodes without anchors mean

A node without anchors and aliases means the same wherever it stands: building its
value neither looks up nor records an anchored value. What a collection means follows
from what its parts mean.
-/

namespace Roster.Yaml

/-- A string as a value. -/
abbrev Value.string (text : String) : Value := .text text

/-- Building goes on behind a part that is built. -/
theorem run_bind_of_ok {α β : Type} {action : Build α} {next : α → Build β} {result : α}
    {before after : Anchored} (built : action.run before = .ok (result, after)) :
    (action >>= next).run before = (next result).run after := by
  rw [StateT.run_bind, built]
  rfl

/-- A node means a value, whatever values are anchored, and anchors none. -/
def Node.Means (node : Node) (value : Value) : Prop :=
  ∀ anchored, node.build.run anchored = .ok (value, anchored)

/-- A scalar means its text. -/
theorem Node.means_scalar (start : Mark) (text : Text.Wide) :
    (Node.scalar start text).Means (.text text) := by
  intro anchored
  rw [Node.build]
  rfl

/-- Items mean their values one after another. -/
theorem buildItems_eq {items : List Node} {values : List Value}
    (mean : List.Forall₂ Node.Means items values) (anchored : Anchored) :
    (buildItems items).run anchored = .ok (values, anchored) := by
  induction mean with
  | nil => rfl
  | cons means _ inductionHypothesis =>
      rw [buildItems, run_bind_of_ok (means anchored), run_bind_of_ok inductionHypothesis]
      rfl

/-- A sequence means what its items mean. -/
theorem Node.means_sequence (start : Mark) {items : List Node} {values : List Value}
    (mean : List.Forall₂ Node.Means items values) :
    (Node.sequence start items).Means (.sequence values) := by
  intro anchored
  rw [Node.build, run_bind_of_ok (buildItems_eq mean anchored)]
  rfl

/-- A node with its value is an entry with a text as its key. -/
structure MeansEntry (entry : Node × Node) (meant : String × Value) : Prop where
  key : entry.1.Means (.text meant.1)
  value : entry.2.Means meant.2

/-- Entries mean their keys and values one after another, if no key comes twice. -/
theorem buildEntries_eq (start : Mark) {entries : List (Node × Node)}
    {meant : List (String × Value)} (mean : List.Forall₂ MeansEntry entries meant)
    (before : List (String × Value)) (distinct : ((before ++ meant).map Prod.fst).Nodup)
    (anchored : Anchored) :
    (buildEntries start (before.map fun entry => (.text entry.1, entry.2)) entries).run anchored =
      .ok ((before ++ meant).map fun entry => (.text entry.1, entry.2), anchored) := by
  induction mean generalizing before with
  | nil =>
      rw [buildEntries, List.append_nil]
      rfl
  | @cons entry next entries meant means _ inductionHypothesis =>
      obtain ⟨keyNode, valueNode⟩ := entry
      have rest := inductionHypothesis (before ++ [next]) (by simpa using distinct)
      have absent : (before.map fun entry => (Key.text entry.1, entry.2)).lookup (.text next.1) =
          none := by
        rw [List.lookup_eq_none_iff]
        intro other member
        obtain ⟨earlier, isEarlier, rfl⟩ := List.mem_map.1 member
        simp only [List.map_append, List.map_cons, List.nodup_append] at distinct
        have differs := distinct.2.2 earlier.1 (List.mem_map_of_mem isEarlier) next.1
          List.mem_cons_self
        simpa using differs.symm
      rw [buildEntries, run_bind_of_ok (means.key anchored)]
      simp only [Value.keyCandidate?]
      have isKey : (liftM (KeyCandidate.key (.text next.1)).toKey : Build Key).run anchored =
          .ok (.text next.1, anchored) := rfl
      rw [run_bind_of_ok (means.value anchored), run_bind_of_ok isKey]
      simp only [absent]
      simpa using rest

/-- A mapping means what its entries mean, if no key comes twice. -/
theorem Node.means_mapping (start : Mark) {entries : List (Node × Node)}
    {meant : List (String × Value)} (mean : List.Forall₂ MeansEntry entries meant)
    (distinct : (meant.map Prod.fst).Nodup) :
    (Node.mapping start entries).Means
      (.mapping (meant.map fun entry => (.text entry.1, entry.2))) := by
  intro anchored
  have built := buildEntries_eq start mean [] distinct anchored
  rw [List.map_nil, List.nil_append] at built
  rw [Node.build, run_bind_of_ok built]
  rfl

/-- The value of a root node is what it means. -/
theorem Node.Means.toValue {root : Node} {value : Value} (means : root.Means value) :
    root.toValue = .ok value := by
  rw [Node.toValue, means []]
  rfl

end Roster.Yaml
