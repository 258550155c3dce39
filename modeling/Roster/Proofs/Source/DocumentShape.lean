import Roster.Proofs.Configuration.Refusal
import Roster.Proofs.Export.YamlDocument
import Roster.Proofs.Source.Built
import Roster.Proofs.Source.Rereading

/-!
# The shape of documents

Which documents are read as configurations, as which ones, and what is wrong with all others.
`Lists` says which descriptors a document lists, and `HasFault` what the first fault of a
document is; both look at the document from outside and not item after item. Reading gives
exactly what the one or the other says, so that every document has the one or the other.
-/

namespace Roster

open Roster.Storage (Path Store)
open Roster.Text (Wide)
open Roster.Yaml (Key Value)

/-- What stands under the key of the nodes. -/
def nodesOf (entries : List (Key × Value)) : Option Value := entries.lookup (.text nodesKey)

/-- A document lists descriptors: there is none at all, it is a mapping without nodes, or with
nothing for them, or its nodes are a sequence of texts that are descriptors. -/
inductive Lists : Option Value → List Wide → Prop where
  | noDocument : Lists none []
  | null : Lists (some .null) []
  | noNodes {entries : List (Key × Value)} (absent : nodesOf entries = none) :
      Lists (some (.mapping entries)) []
  | nullNodes {entries : List (Key × Value)} (isNull : nodesOf entries = some .null) :
      Lists (some (.mapping entries)) []
  | emptyNodes {entries : List (Key × Value)} (isEmpty : nodesOf entries = some (.text "")) :
      Lists (some (.mapping entries)) []
  | nodes {entries : List (Key × Value)} {descriptors : List Wide}
      (areNodes : nodesOf entries = some (.sequence (descriptors.map .text)))
      (valid : ∀ descriptor ∈ descriptors, IsWideDescriptor descriptor) :
      Lists (some (.mapping entries)) descriptors

/-- What is wrong with an item of the nodes: it is no text, or a text that is refused as a
descriptor. -/
inductive Misfits (path : Path) : Value → ReadError → Prop where
  | noScalar {item : Value} (other : ∀ text, item ≠ .text text) :
      Misfits path item (.noScalar path item)
  | descriptor {text : Wide} {cause : InvalidDescriptor} (refused : RefusedText text cause) :
      Misfits path (.text text) (.descriptor cause)

/-- What is wrong with a document: it is no mapping, its nodes are no sequence, or an item
behind good ones does not fit. -/
inductive HasFault (path : Path) : Option Value → ReadError → Prop where
  | noMapping {value : Value} (notNull : value ≠ .null)
      (other : ∀ entries, value ≠ .mapping entries) : HasFault path (some value) (.noMapping path)
  | noSequence {entries : List (Key × Value)} {nodes : Value}
      (isGiven : nodesOf entries = some nodes) (notNull : nodes ≠ .null)
      (notEmpty : nodes ≠ .text "") (other : ∀ items, nodes ≠ .sequence items) :
      HasFault path (some (.mapping entries)) (.noSequence path)
  | item {entries : List (Key × Value)} {front : List Wide} {item : Value} {back : List Value}
      {error : ReadError}
      (areNodes : nodesOf entries = some (.sequence (front.map .text ++ item :: back)))
      (valid : ∀ descriptor ∈ front, IsWideDescriptor descriptor)
      (misfits : Misfits path item error) : HasFault path (some (.mapping entries)) error

/-- An item fits that is a text and a descriptor. -/
def Fits (item : Value) : Prop :=
  ∃ descriptor, item = .text descriptor ∧ IsWideDescriptor descriptor

/-- Whether an item is added does not depend on the descriptors that are there. -/
theorem exists_addNode_iff (path : Path) (configuration : WideConfiguration) (item : Value) :
    (∃ next, addNode path configuration item = .ok next) ↔ Fits item := by
  cases item with
  | text text =>
      constructor
      · rintro ⟨next, added⟩
        exact ⟨text, rfl, (WideConfiguration.add_eq_ok_iff.1 (mapError_eq_ok.1 added)).1⟩
      · rintro ⟨descriptor, same, valid⟩
        obtain rfl := Value.text.inj same
        exact ⟨_, mapError_eq_ok.2 (WideConfiguration.add_eq_ok_iff.2 ⟨valid, rfl⟩)⟩
  | _ => simp [addNode, Fits]

/-- An item is refused exactly for what is wrong with it. -/
theorem addNode_eq_error_iff (path : Path) (configuration : WideConfiguration) (item : Value)
    (error : ReadError) :
    addNode path configuration item = .error error ↔ Misfits path item error := by
  constructor
  · intro failed
    cases item with
    | text text =>
        obtain ⟨cause, refused, rfl⟩ := mapError_eq_error.1 failed
        exact .descriptor (WideConfiguration.add_eq_error_iff.1 refused)
    | _ =>
        obtain rfl := Except.error.inj failed
        exact .noScalar nofun
  · intro misfits
    cases misfits with
    | descriptor refused =>
        exact mapError_eq_error.2 ⟨_, WideConfiguration.add_eq_error_iff.2 refused, rfl⟩
    | noScalar other =>
        cases item with
        | text text => exact absurd rfl (other text)
        | _ => rfl

/-- Items that are added are texts. -/
theorem exists_texts_of_fit {items : List Value} (fit : ∀ item ∈ items, Fits item) :
    ∃ descriptors : List Wide, items = descriptors.map .text ∧
      ∀ descriptor ∈ descriptors, IsWideDescriptor descriptor := by
  induction items with
  | nil => exact ⟨[], rfl, List.forall_mem_nil _⟩
  | cons item others inductionHypothesis =>
      obtain ⟨⟨descriptor, rfl, valid⟩, rest⟩ := List.forall_mem_cons.1 fit
      obtain ⟨descriptors, rfl, areValid⟩ := inductionHypothesis rest
      exact ⟨descriptor :: descriptors, rfl, List.forall_mem_cons.2 ⟨valid, areValid⟩⟩

theorem text_injective : Function.Injective Value.text := fun _ _ => Value.text.inj

/-- The items of a sequence are added exactly if they are texts that are descriptors, and give
a configuration of those. -/
theorem foldlM_addNode_eq_ok_iff (path : Path) (items : List Value) (descriptors : List Wide) :
    items.foldlM (addNode path) WideConfiguration.empty = .ok { descriptors } ↔
      items = descriptors.map .text ∧
        ∀ descriptor ∈ descriptors, IsWideDescriptor descriptor := by
  have texts {result : WideConfiguration}
      (added : items.foldlM (addNode path) WideConfiguration.empty = .ok result) :
      items = result.descriptors.map .text := by
    obtain ⟨found, same, listed⟩ := exists_of_foldlM_addNode added
    rw [same, listed]
    rfl
  constructor
  · intro added
    exact ⟨texts added, (gives_built_nodes path _ _ added).isWideDescriptor⟩
  · rintro ⟨rfl, valid⟩
    obtain ⟨result, added⟩ := (exists_foldlM_iff (exists_addNode_iff path)).2
      (List.forall_mem_map.2 fun descriptor member => ⟨descriptor, rfl, valid _ member⟩)
    have same := text_injective.list_map (texts added)
    rw [added, same]

/-- The items of a sequence are refused for what is wrong with the first that does not fit. -/
theorem foldlM_addNode_eq_error_iff (path : Path) (items : List Value) (error : ReadError) :
    items.foldlM (addNode path) WideConfiguration.empty = .error error ↔
      ∃ (front : List Wide) (item : Value) (back : List Value),
        items = front.map .text ++ item :: back ∧
        (∀ descriptor ∈ front, IsWideDescriptor descriptor) ∧ Misfits path item error := by
  rw [foldlM_eq_error_iff (exists_addNode_iff path) (addNode_eq_error_iff path)]
  constructor
  · rintro ⟨front, item, back, rfl, fit, misfits⟩
    obtain ⟨descriptors, rfl, valid⟩ := exists_texts_of_fit fit
    exact ⟨descriptors, item, back, rfl, valid, misfits⟩
  · rintro ⟨front, item, back, rfl, valid, misfits⟩
    refine ⟨front.map .text, item, back, rfl, ?_, misfits⟩
    intro other member
    obtain ⟨descriptor, isFront, rfl⟩ := List.mem_map.1 member
    exact ⟨descriptor, rfl, valid descriptor isFront⟩

/-- What is read as a configuration, whether or not it is one of strings. -/
inductive ReadsAs : Except ReadError Reading → WideConfiguration → Prop where
  | strings {reading : Reading} (built : reading.configuration.Built) :
      ReadsAs (.ok reading) reading.configuration.wide
  | halved {reading : WideReading} (built : reading.configuration.Built)
      (isHalved : reading.configuration.isHalved = true) :
      ReadsAs (.error (.halved reading)) reading.configuration

/-- Nodes are read as what they are. -/
theorem readsAs_nodesReading (origin : String) {nodes : WideConfiguration} (built : nodes.Built) :
    ReadsAs (nodesReading origin nodes) nodes := by
  cases halved : nodes.isHalved with
  | true =>
      rw [nodesReading, if_pos halved]
      exact .halved built halved
  | false =>
      obtain ⟨narrow, builtNarrow, rfl, -⟩ := built.exists_wide halved
      rw [nodesReading_wide builtNarrow]
      exact .strings builtNarrow

/-- An error that is read as a configuration tells no fault. -/
theorem ReadsAs.exists_halved {error : ReadError} {configuration : WideConfiguration}
    (reads : ReadsAs (.error error) configuration) : ∃ reading, error = .halved reading := by
  cases reads with
  | halved => exact ⟨_, rfl⟩

/-- An outcome is read as one configuration at most. -/
theorem ReadsAs.unique {outcome : Except ReadError Reading} {left right : WideConfiguration}
    (readsLeft : ReadsAs outcome left) (readsRight : ReadsAs outcome right) : left = right := by
  cases readsLeft <;> cases readsRight <;> rfl

/-- A reading of the empty configuration lists nothing. -/
theorem readsAs_empty {outcome : Except ReadError Reading} (reading : Reading)
    (isRead : outcome = .ok reading) (isEmpty : reading.configuration = .empty) :
    ReadsAs outcome { descriptors := [] } := by
  obtain ⟨configuration, report⟩ := reading
  obtain rfl := isEmpty
  rw [isRead]
  exact .strings .empty

/-- The items of a sequence are read exactly as the descriptors that they are. -/
theorem readsAs_nodes_iff (path : Path) (items : List Value) (descriptors : List Wide) :
    ReadsAs (items.foldlM (addNode path) WideConfiguration.empty >>= nodesReading path.toString)
        { descriptors } ↔
      items = descriptors.map .text ∧
        ∀ descriptor ∈ descriptors, IsWideDescriptor descriptor := by
  rw [← foldlM_addNode_eq_ok_iff path]
  cases added : items.foldlM (addNode path) WideConfiguration.empty with
  | error error =>
      refine iff_of_false (fun reads => ?_) (by simp)
      obtain ⟨reading, rfl⟩ := reads.exists_halved
      obtain ⟨front, item, back, -, -, misfits⟩ := (foldlM_addNode_eq_error_iff _ _ _).1 added
      cases misfits
  | ok nodes =>
      have reads := readsAs_nodesReading path.toString (gives_built_nodes path _ _ added)
      constructor
      · intro readsToo
        rw [reads.unique readsToo]
      · rintro ⟨⟩
        exact reads

/-- A document is read exactly as the descriptors that it lists. -/
theorem readsAs_readDocument_iff (path : Path) (document : Option Value)
    (descriptors : List Wide) :
    ReadsAs (readDocument path document) { descriptors } ↔ Lists document descriptors := by
  constructor
  · intro reads
    unfold readDocument at reads
    split at reads
    · cases reads.unique (readsAs_empty _ rfl rfl)
      exact .noDocument
    · cases reads.unique (readsAs_empty _ rfl rfl)
      exact .null
    · split at reads
      · cases reads.unique (readsAs_empty _ rfl rfl)
        exact .noNodes ‹_›
      · cases reads.unique (readsAs_empty _ rfl rfl)
        exact .nullNodes ‹_›
      · cases reads.unique (readsAs_empty _ rfl rfl)
        exact .emptyNodes ‹_›
      · rename_i items areNodes
        obtain ⟨rfl, valid⟩ := (readsAs_nodes_iff path _ _).1 reads
        exact .nodes areNodes valid
      · obtain ⟨_, impossible⟩ := reads.exists_halved
        cases impossible
    · obtain ⟨_, impossible⟩ := reads.exists_halved
      cases impossible
  · intro lists
    cases lists with
    | noDocument => exact readsAs_empty _ rfl rfl
    | null => exact readsAs_empty _ rfl rfl
    | noNodes absent =>
        rw [nodesOf] at absent
        exact readsAs_empty (withoutNodes path) (by rw [readDocument, absent]) rfl
    | nullNodes isNull =>
        rw [nodesOf] at isNull
        exact readsAs_empty (withoutNodes path) (by rw [readDocument, isNull]) rfl
    | emptyNodes isEmpty =>
        rw [nodesOf] at isEmpty
        exact readsAs_empty (withoutNodes path) (by simp only [readDocument, isEmpty]) rfl
    | nodes areNodes valid =>
        rw [nodesOf] at areNodes
        rw [readDocument_nodes path areNodes]
        exact (readsAs_nodes_iff path _ _).2 ⟨rfl, valid⟩

/-- An error that tells a fault: something is wrong, and not only half of a pair met. -/
def ReadError.IsFault (error : ReadError) : Prop := ∀ reading, error ≠ .halved reading

/-- A document is refused exactly for its first fault. -/
theorem readDocument_eq_error_iff (path : Path) (document : Option Value) (error : ReadError) :
    readDocument path document = .error error ∧ error.IsFault ↔ HasFault path document error := by
  constructor
  · rintro ⟨failed, isFault⟩
    unfold readDocument at failed
    split at failed
    · cases failed
    · cases failed
    · split at failed
      · cases failed
      · cases failed
      · cases failed
      · rename_i areNodes
        rcases bind_eq_error.1 failed with whole | ⟨nodes, added, failed⟩
        · obtain ⟨front, item, back, rfl, valid, misfits⟩ :=
            (foldlM_addNode_eq_error_iff path _ _).1 whole
          exact .item areNodes valid misfits
        · have reads := readsAs_nodesReading path.toString (gives_built_nodes path _ _ added)
          rw [failed] at reads
          obtain ⟨reading, same⟩ := reads.exists_halved
          exact absurd same (isFault reading)
      · rename_i nodes notNull notEmpty notSequence isGiven
        obtain rfl := Except.error.inj failed
        exact .noSequence isGiven notNull notEmpty notSequence
    · rename_i value notNull other
      obtain rfl := Except.error.inj failed
      exact .noMapping notNull other
  · intro faulty
    cases faulty with
    | @noMapping value notNull other =>
        refine ⟨?_, by rintro reading ⟨⟩⟩
        cases value with
        | null => exact absurd rfl notNull
        | mapping entries => exact absurd rfl (other entries)
        | _ => rfl
    | @noSequence entries nodes isGiven notNull notEmpty other =>
        refine ⟨?_, by rintro reading ⟨⟩⟩
        rw [nodesOf] at isGiven
        cases nodes with
        | null => exact absurd rfl notNull
        | sequence items => exact absurd rfl (other items)
        | mapping inner => rw [readDocument, isGiven]
        | text text => simp [readDocument, isGiven]
    | item areNodes valid misfits =>
        refine ⟨?_, by cases misfits <;> rintro reading ⟨⟩⟩
        rw [nodesOf] at areNodes
        rw [readDocument_nodes path areNodes]
        exact bind_eq_error.2
          (.inl ((foldlM_addNode_eq_error_iff path _ _).2 ⟨_, _, _, rfl, valid, misfits⟩))

namespace Reader

/-- A file that is loaded as a document is read exactly as the descriptors that the document
lists, in their order, with an outcome of its own if there are halves among them; and it is
refused exactly for the first fault of the document, whatever else is in it. -/
theorem read_by_shape {store : Store} {path : Path} {version : Option Yaml.Version}
    {text : List Char} {document : Option Value} (readable : readFileText store path = .ok text)
    (loaded : (Yaml.load version text).1 = .ok document) :
    (∀ descriptors, ReadsAs ((yamlFile path version).read store).1 { descriptors } ↔
        Lists document descriptors) ∧
      ∀ error, ((yamlFile path version).read store).1 = .error error ∧ error.IsFault ↔
        HasFault path document error := by
  have outcome : ((yamlFile path version).read store).1 = readDocument path document := by
    rw [read, readYamlFile_of_text readable, loaded]
    rfl
  rw [outcome]
  exact ⟨readsAs_readDocument_iff path document, readDocument_eq_error_iff path document⟩

/-- The text of a document with two faulty nodes behind a good one. -/
def misfitText : List Char := "rack: [1]\nnodes: [1.10, b c, [d]]\n".toList

/-- A document with two faulty nodes behind a good one. -/
def misfitDocument : Value :=
  .mapping [(.text "rack", .sequence [.text "1"]),
    (.text nodesKey, .sequence [.text "1.10", .text "b c", .sequence [.text "d"]])]

/-- The first faulty node is the one that counts. -/
theorem read_by_shape_first_fault :
    readFileText (storeOf misfitText) (.ofString "c.yaml") = .ok misfitText ∧
      (Yaml.load none misfitText).1 = .ok (some misfitDocument) ∧
      ((yamlFile (.ofString "c.yaml") none).read (storeOf misfitText)).1 =
        .error (.descriptor (.containsBlank "b c")) := by
  have readable : readFileText (storeOf misfitText) (.ofString "c.yaml") = .ok misfitText :=
    readFileText_storeOf misfitText
  have loaded : (Yaml.load none misfitText).1 = .ok (some misfitDocument) := by cbv
  have blankInside : Misfits (.ofString "c.yaml") (.text "b c")
      (.descriptor (.containsBlank "b c")) :=
    .descriptor (@RefusedText.containsBlank "b c" (.char ' ') (by decide) (by decide))
  have valid : IsWideDescriptor "1.10" := isWideDescriptor_plain.2 (by decide)
  have hasFault : HasFault (.ofString "c.yaml") (some misfitDocument)
      (.descriptor (.containsBlank "b c")) :=
    @HasFault.item _ _ ["1.10"] _ [.sequence [.text "d"]] _ rfl
      (List.forall_mem_singleton.2 valid) blankInside
  exact ⟨readable, loaded, (((read_by_shape readable loaded).2 _).2 hasFault).1⟩

end Reader

end Roster
