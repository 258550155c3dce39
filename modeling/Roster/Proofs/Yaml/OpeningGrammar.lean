import Roster.Proofs.Yaml.Grammar
import Roster.Proofs.Yaml.Opening

/-!
# Documents whose tokens are known in part

What a document holds if only its first tokens are known. `Finds` is the counterpart of
`Takes` for that: it says something only of an action that gives a result, and so it
allows for an error behind the tokens that are known. Its result here is an item of a
sequence: if the first token of an item shows that the item is not a certain text, the
sequence does not hold that text in that place.
-/

namespace Roster.Yaml

/-- Without tokens there is an error. -/
theorem Opens.exists_failure {failure : Option Error} {kind : TokenKind} {front : List TokenKind}
    (opens : Opens [] failure (kind :: front)) : ∃ error, failure = some error := by
  rcases opens with whole | ⟨failed, -⟩
  · exact absurd (List.prefix_nil.1 whole) (List.cons_ne_nil kind front)
  · exact Option.isSome_iff_exists.1 failed

/-- The first token has the first kind. -/
theorem Opens.cons {token : Token} {tokens : List Token} {failure : Option Error}
    {kind : TokenKind} {front : List TokenKind}
    (opens : Opens (token :: tokens) failure (kind :: front)) :
    token.kind = kind ∧ Opens tokens failure front := by
  rcases opens with whole | ⟨failed, whole⟩
  · obtain ⟨same, rest⟩ := List.cons_prefix_cons.1 whole
    exact ⟨same.symm, .inl rest⟩
  · obtain ⟨same, rest⟩ := List.cons_prefix_cons.1 whole
    exact ⟨same, .inr ⟨failed, rest⟩⟩

/-- The tokens that are left begin with some kinds, or an error comes before all of these
are met, and there are not too many of them. -/
structure Composition.Opening (front : List TokenKind) (bound : Nat) (state : Composition) :
    Prop where
  opens : Opens state.tokens state.failure front
  bounded : state.tokens.length ≤ bound

namespace Compose

variable {α β : Type}

/-- From a state of some kind, an action that gives a result gives one of some kind, and
leaves a state that fits it. -/
def Finds (before : Composition → Prop) (action : Compose α) (after : α → Composition → Prop) :
    Prop :=
  ∀ state, before state → ∀ result final, action.run state = (.ok result, final) →
    after result final

theorem Finds.bind {before : Composition → Prop} {action : Compose α} {next : α → Compose β}
    {between : α → Composition → Prop} {after : β → Composition → Prop}
    (finds : Finds before action between)
    (onward : ∀ result, Finds (between result) (next result) after) :
    Finds before (action >>= next) after := by
  intro state holds final reached ran
  rw [run_bind] at ran
  rcases first : action.run state with ⟨error | result, middle⟩
  · rw [first] at ran
    cases ran
  · rw [first] at ran
    exact onward result middle (finds state holds result middle first) final reached ran

theorem Finds.pure {before : Composition → Prop} {after : α → Composition → Prop} {result : α}
    (holds : ∀ state, before state → after result state) :
    Finds before (pure result) after := by
  intro state isBefore other final ran
  cases ran
  exact holds state isBefore

/-- Of an action about which nothing is known, nothing follows. -/
theorem Finds.any (before : Composition → Prop) (action : Compose α) :
    Finds before action fun _ _ => True :=
  fun _ _ _ _ _ => trivial

/-- A result is put to use. -/
theorem Finds.bind_pure {before : Composition → Prop} {action : Compose α} {use : α → β}
    {between : α → Composition → Prop} {property : β → Prop}
    (finds : Finds before action between)
    (holds : ∀ result state, between result state → property (use result)) :
    Finds before (action >>= fun result => Pure.pure (use result)) fun result _ =>
      property result :=
  finds.bind fun result => Finds.pure fun state isBetween => holds result state isBetween

section Steps

variable {kind : TokenKind} {rest : List TokenKind} {bound : Nat}
  {after : β → Composition → Prop}

theorem finds_peek (kind : TokenKind) (rest : List TokenKind) (bound : Nat) :
    Finds (Composition.Opening (kind :: rest) bound) peek fun token state =>
      token.kind = kind ∧ state.Opening (kind :: rest) bound ∧ state.tokens.head? = some token := by
  intro state opening result final ran
  cases tokens : state.tokens with
  | nil =>
      have opens := opening.opens
      rw [tokens] at opens
      obtain ⟨error, failed⟩ := opens.exists_failure
      rw [peek, run_bind_of_ok
        (show (get : Compose Composition).run state = (.ok state, state) from rfl), tokens,
        failed] at ran
      cases ran
  | cons token others =>
      rw [run_peek tokens] at ran
      cases ran
      have opens := opening.opens
      rw [tokens] at opens
      exact ⟨opens.cons.1, opening, by rw [tokens]; rfl⟩

/-- The token that is seen next decides how an action goes on. -/
theorem Finds.peek_bind {next : Token → Compose β}
    (onward : ∀ token, token.kind = kind →
      Finds (Composition.Opening (kind :: rest) bound) (next token) after) :
    Finds (Composition.Opening (kind :: rest) bound) (peek >>= next) after :=
  (finds_peek kind rest bound).bind fun token state holds =>
    onward token holds.1 state holds.2.1

/-- What is seen next decides how an action goes on. -/
theorem Finds.peekKind_bind {next : TokenKind → Compose β}
    (onward : Finds (Composition.Opening (kind :: rest) bound) (next kind) after) :
    Finds (Composition.Opening (kind :: rest) bound) (peekKind >>= next) after := by
  rw [peekKind, map_eq_pure_bind, bind_assoc]
  refine Finds.peek_bind fun token isKind => ?_
  rw [pure_bind, isKind]
  exact onward

/-- A token is taken, so there was one, and an action goes on behind it. -/
theorem Finds.take_bind {next : Token → Compose β}
    (onward : ∀ token, 0 < bound →
      Finds (Composition.Opening rest (bound - 1)) (next token) after) :
    Finds (Composition.Opening (kind :: rest) bound) (take >>= next) after := by
  rw [take, bind_assoc]
  refine (finds_peek kind rest bound).bind fun token => ?_
  rintro state ⟨-, opening, isHead⟩
  obtain ⟨others, tokens⟩ := List.head?_eq_some_iff.1 isHead
  obtain ⟨opens, bounded⟩ := opening
  rw [tokens] at opens bounded
  rw [List.length_cons] at bounded
  intro result final ran
  refine onward token (by omega) { state with tokens := state.tokens.tail } ⟨?_, ?_⟩ result
    final ran
  · rw [tokens]
    exact opens.cons.2
  · rw [tokens]
    exact Nat.le_sub_one_of_lt bounded

end Steps

/-- An action that leaves the state alone, and whose result is known, may be left out. -/
theorem Finds.known_bind {before : Composition → Prop} {action : Compose α} {known : α}
    {next : α → Compose β} {after : β → Composition → Prop}
    (finds : Finds before action fun result state => result = known ∧ before state)
    (onward : Finds before (next known) after) : Finds before (action >>= next) after := by
  refine finds.bind fun result => ?_
  rintro state ⟨same, isBefore⟩
  rw [same]
  exact onward state isBefore

section Nodes

variable {kind : TokenKind} {rest : List TokenKind} {bound fuel : Nat} {position : Position}

/-- In front of a token that is no property there are no properties. -/
theorem finds_properties (bare : isProperty kind = false) :
    Finds (Composition.Opening (kind :: rest) bound) properties fun found state =>
      found = { start := none, anchor := none } ∧ state.Opening (kind :: rest) bound := by
  have noAnchor : Finds (Composition.Opening (kind :: rest) bound) anchor? fun found state =>
      found = none ∧ state.Opening (kind :: rest) bound := by
    refine Finds.peekKind_bind ?_
    cases kind <;> first | exact Finds.pure fun _ opening => ⟨rfl, opening⟩ | cases bare
  have noTag : Finds (Composition.Opening (kind :: rest) bound) tag? fun found state =>
      found = none ∧ state.Opening (kind :: rest) bound := by
    refine Finds.peekKind_bind ?_
    cases kind <;> first | exact Finds.pure fun _ opening => ⟨rfl, opening⟩ | cases bare
  refine noAnchor.known_bind ?_
  refine noTag.known_bind ?_
  exact Finds.pure fun _ opening => ⟨rfl, opening⟩

/-- A scalar is read as its text. -/
theorem finds_scalar (text : Text.Wide) :
    Finds (Composition.Opening (.scalar text :: rest) bound) (node (fuel + 1) position)
      fun node state => node.Means (.text text) ∧ 0 < bound ∧ state.Opening rest (bound - 1) := by
  have noEntry : (TokenKind.scalar text == .blockEntry) = false := rfl
  rw [node]
  refine Finds.peekKind_bind ?_
  refine (finds_properties rfl).known_bind ?_
  refine Finds.peek_bind fun token isScalar => ?_
  simp only [isScalar, named, noEntry, Bool.and_false, Bool.false_eq_true, if_false]
  exact Finds.take_bind fun _ positive =>
    Finds.pure fun _ opening => ⟨Node.means_scalar _ text, positive, opening⟩

/-- The start of a block sequence is read as a sequence of its entries. -/
theorem finds_sequence (inBlock : position ≠ .flow) {property : List Node → Prop}
    (entries : ∀ since, 0 < bound → Finds (Composition.Opening rest (bound - 1))
      (blockSequence fuel since) fun items _ => property items) :
    Finds (Composition.Opening (.blockSequenceStart :: rest) bound) (node (fuel + 1) position)
      fun node _ => ∃ start items, node = .sequence start items ∧ property items := by
  have notFlow : (position != .flow) = true := by simpa using inBlock
  rw [node]
  refine Finds.peekKind_bind ?_
  refine (finds_properties rfl).known_bind ?_
  refine Finds.peek_bind fun token isStart => ?_
  simp only [isStart, named, notFlow]
  rw [if_neg (by simp), if_neg (by decide), if_neg (by decide), if_pos (by decide)]
  exact Finds.take_bind fun start positive =>
    (entries start.start positive).bind_pure fun items _ holds => ⟨_, items, rfl, holds⟩

/-- The start of a block mapping is read as a mapping of its entries. -/
theorem finds_mapping (inBlock : position ≠ .flow) {property : List (Node × Node) → Prop}
    (entries : ∀ since, 0 < bound → Finds (Composition.Opening rest (bound - 1))
      (blockMapping fuel since) fun entries _ => property entries) :
    Finds (Composition.Opening (.blockMappingStart :: rest) bound) (node (fuel + 1) position)
      fun node _ => ∃ start entries, node = .mapping start entries ∧ property entries := by
  have notFlow : (position != .flow) = true := by simpa using inBlock
  rw [node]
  refine Finds.peekKind_bind ?_
  refine (finds_properties rfl).known_bind ?_
  refine Finds.peek_bind fun token isStart => ?_
  simp only [isStart, named, notFlow]
  rw [if_neg (by simp), if_neg (by decide), if_neg (by decide), if_neg (by decide),
    if_pos (by decide)]
  exact Finds.take_bind fun start positive =>
    (entries start.start positive).bind_pure fun found _ holds => ⟨_, found, rfl, holds⟩

/-- A node is read if the next token does not leave it empty. -/
theorem finds_nodeUnless {stops : List TokenKind} {after : Node → Composition → Prop}
    (goesOn : stops.contains kind = false) (place : Mark)
    (finds : Finds (Composition.Opening (kind :: rest) bound) (node fuel position) after) :
    Finds (Composition.Opening (kind :: rest) bound) (nodeUnless (fuel + 1) stops position place)
      after := by
  have look : Finds (Composition.Opening (kind :: rest) bound) (atOneOf stops) fun found state =>
      found = stops.contains kind ∧ state.Opening (kind :: rest) bound :=
    Finds.peekKind_bind (Finds.pure fun _ opening => ⟨rfl, opening⟩)
  rw [nodeUnless]
  refine look.known_bind ?_
  rw [goesOn]
  exact finds

end Nodes

end Compose

/-- A token that is no text, or another text. -/
inductive TokenKind.Unlike (text : String) : TokenKind → Prop where
  | scalar {other : Text.Wide} (differs : other ≠ text) : Unlike text (.scalar other)
  | mapping : Unlike text .blockMappingStart

/-- A node that means no text, or another text. -/
inductive Node.Unlike (text : String) (node : Node) : Prop where
  | scalar {other : Text.Wide} (differs : other ≠ text) (means : node.Means (.text other))
  | mapping (start : Mark) (entries : List (Node × Node)) (same : node = .mapping start entries)

/-- Nodes that mean texts, up to one that does not mean a text that might be expected. -/
def Departs (texts : List String) (text : String) (items : List Node) : Prop :=
  ∃ front item behind, items = front ++ item :: behind ∧
    List.Forall₂ Node.Means front (texts.map Value.string) ∧ item.Unlike text

namespace Compose

variable {text : String} {kind : TokenKind}

/-- What begins unlike a text is unlike that text. -/
theorem finds_unlike (isUnlike : kind.Unlike text) (bound fuel : Nat) :
    Finds (Composition.Opening [kind] bound) (node (fuel + 1) .block) fun node _ =>
      node.Unlike text := by
  cases isUnlike with
  | scalar differs =>
      exact fun state opening node after ran =>
        .scalar differs (finds_scalar _ state opening node after ran).1
  | mapping =>
      intro state opening node after ran
      obtain ⟨start, entries, same, -⟩ := finds_mapping (by decide)
        (fun since _ => Finds.any _ (blockMapping fuel since)) state opening node after ran
      exact .mapping start entries same

/-- The entries of a block sequence are read up to one that departs from what might be
expected. -/
theorem finds_blockSequence (isUnlike : kind.Unlike text) (texts : List (List Char))
    {bound fuel : Nat} (enough : bound + 2 ≤ fuel) (since : Mark) :
    Finds (Composition.Opening (Scan.entryKinds texts ++ [.blockEntry, kind]) bound)
      (blockSequence fuel since) fun items _ => Departs (texts.map String.ofList) text items := by
  induction texts generalizing bound fuel with
  | nil =>
      obtain ⟨less, rfl⟩ := Nat.exists_eq_add_of_le' (show 1 ≤ fuel by omega)
      rw [blockSequence]
      refine Finds.peek_bind fun token isEntry => ?_
      simp only [isEntry]
      refine Finds.take_bind fun entry positive => ?_
      obtain ⟨least, rfl⟩ := Nat.exists_eq_add_of_le' (show 2 ≤ less by omega)
      have goesOn : [TokenKind.blockEntry, .blockEnd].contains kind = false := by
        cases isUnlike <;> rfl
      refine (finds_nodeUnless goesOn _ (finds_unlike isUnlike _ least)).bind fun item => ?_
      intro state itemUnlike
      exact (Finds.any (fun _ => True) _).bind_pure
        (fun others _ _ => ⟨[], item, others, rfl, .nil, itemUnlike⟩) state trivial
  | cons next texts inductionHypothesis =>
      obtain ⟨less, rfl⟩ := Nat.exists_eq_add_of_le' (show 1 ≤ fuel by omega)
      rw [blockSequence]
      refine Finds.peek_bind fun token isEntry => ?_
      simp only [isEntry]
      refine Finds.take_bind fun entry positive => ?_
      obtain ⟨least, rfl⟩ := Nat.exists_eq_add_of_le' (show 2 ≤ less by omega)
      refine (finds_nodeUnless rfl _ (finds_scalar (.plain (String.ofList next)))).bind fun item => ?_
      rintro state ⟨means, room, opening⟩
      refine (inductionHypothesis (by omega)).bind_pure ?_ state opening
      rintro _ _ ⟨front, other, behind, rfl, mean, otherUnlike⟩
      exact ⟨item :: front, other, behind, rfl, .cons means mean, otherUnlike⟩

end Compose

/-- A mapping whose first entry has a certain key and a sequence as its value, which departs
from what might be expected. -/
def Node.HoldsDeparting (key : String) (texts : List String) (text : String) (root : Node) : Prop :=
  ∃ start keyNode place items others,
    root = .mapping start ((keyNode, .sequence place items) :: others) ∧
      keyNode.Means (.text key) ∧ Departs texts text items

namespace Compose

variable {text : String} {kind : TokenKind}

/-- The first entry of a block mapping is read with its key and a sequence that departs from
what might be expected. -/
theorem finds_blockMapping (isUnlike : kind.Unlike text) (key : String) (texts : List (List Char))
    {bound fuel : Nat} (enough : bound + 4 ≤ fuel) (since : Mark) :
    Finds (Composition.Opening (.key :: .scalar key :: .value :: .blockSequenceStart ::
        (Scan.entryKinds texts ++ [.blockEntry, kind])) bound)
      (blockMapping fuel since) fun entries _ => ∃ keyNode place items others,
        entries = (keyNode, .sequence place items) :: others ∧ keyNode.Means (.text key) ∧
          Departs (texts.map String.ofList) text items := by
  obtain ⟨less, rfl⟩ := Nat.exists_eq_add_of_le' (show 1 ≤ fuel by omega)
  rw [blockMapping]
  refine Finds.peek_bind fun token isKey => ?_
  simp only [isKey]
  refine Finds.take_bind fun mark positive => ?_
  obtain ⟨least, rfl⟩ := Nat.exists_eq_add_of_le' (show 3 ≤ less by omega)
  refine (finds_nodeUnless rfl _ (finds_scalar key)).bind fun keyNode => ?_
  rintro state ⟨means, room, opening⟩
  have value : Finds (Composition.Opening (.value :: .blockSequenceStart ::
      (Scan.entryKinds texts ++ [.blockEntry, kind])) (bound - 1 - 1)) (blockValue (least + 3))
      fun node _ => ∃ place items, node = .sequence place items ∧
        Departs (texts.map String.ofList) text items := by
    rw [blockValue]
    refine Finds.peekKind_bind ?_
    refine Finds.take_bind fun colon _ => ?_
    exact finds_nodeUnless rfl _ (finds_sequence (by decide) fun place _ =>
      finds_blockSequence isUnlike texts (by omega) place)
  refine value.bind (fun valueNode => ?_) state opening
  rintro state ⟨place, items, rfl, departs⟩
  exact (Finds.any (fun _ => True) _).bind_pure
    (fun others _ _ => ⟨keyNode, place, items, others, rfl, means, departs⟩) state trivial

theorem Finds.get_bind {α : Type} {before : Composition → Prop} {next : Composition → Compose α}
    {after : α → Composition → Prop}
    (onward : ∀ state, before state → Finds (· = state) (next state) after) :
    Finds before (get >>= next) after := by
  intro state holds result final ran
  rw [run_bind_of_ok (show (get : Compose Composition).run state = (.ok state, state) from rfl)]
    at ran
  exact onward state holds state rfl result final ran

/-- A stream that opens like that of a mapping with a sequence holds a document in which the
sequence departs from what might be expected. -/
theorem finds_document (isUnlike : kind.Unlike text) (key : List Char) (texts : List (List Char))
    (bound : Nat) :
    Finds (Composition.Opening (sequenceFront key texts ++ [kind]) bound) document
      fun result _ => ∃ root, result = some root ∧
        root.HoldsDeparting (String.ofList key) (texts.map String.ofList) text := by
  rw [document, sequenceFront]
  simp only [List.cons_append, List.append_assoc]
  refine Finds.take_bind fun _ _ => Finds.get_bind fun reached opening => ?_
  -- From here on, the tokens that are left are the bound.
  rintro state rfl
  refine (?_ : Finds (Composition.Opening _ state.tokens.length) _ _) state
    ⟨opening.opens, Nat.le_refl _⟩
  refine Finds.peek_bind fun next isNext => ?_
  simp only [isNext, isStreamLevel, Bool.false_eq_true, if_false]
  rw [if_neg (by decide)]
  refine Finds.bind (finds_mapping (by decide) fun since _ =>
    finds_blockMapping isUnlike (String.ofList key) texts (by omega) since) fun root => ?_
  rintro final ⟨start, _, rfl, keyNode, place, items, others, rfl, means, departs⟩
  refine Finds.bind (Finds.any (fun _ => True) _) (fun marked => ?_) final trivial
  exact (Finds.any _ _).bind_pure fun _ _ _ =>
    ⟨_, rfl, start, keyNode, place, items, others, rfl, means, departs⟩

end Compose

/-- Building that goes on behind a part and gives a result has built that part. -/
theorem exists_of_run_bind {α β : Type} {action : Build α} {next : α → Build β} {result : β}
    {before after : Anchored} (built : (action >>= next).run before = .ok (result, after)) :
    ∃ part between, action.run before = .ok (part, between) ∧
      (next part).run between = .ok (result, after) := by
  rw [StateT.run_bind] at built
  cases first : action.run before with
  | error error =>
      rw [first] at built
      cases built
  | ok reached =>
      rw [first] at built
      exact ⟨reached.1, reached.2, rfl, built⟩

/-- The entries that are built stay in front of those that are built later. -/
theorem prefix_of_buildEntries {start : Mark} {entries : List (Node × Node)}
    {built result : List (Key × Value)} {before after : Anchored}
    (ran : (buildEntries start built entries).run before = .ok (result, after)) :
    built <+: result := by
  induction entries generalizing built before with
  | nil =>
      rw [buildEntries] at ran
      cases ran
      exact List.prefix_rfl
  | cons entry others inductionHypothesis =>
      obtain ⟨keyNode, valueNode⟩ := entry
      rw [buildEntries] at ran
      obtain ⟨keyValue, between, -, ran⟩ := exists_of_run_bind ran
      cases isKey : keyValue.keyCandidate? with
      | none =>
          simp only [isKey] at ran
          cases ran
      | some candidate =>
          simp only [isKey] at ran
          obtain ⟨value, between, -, ran⟩ := exists_of_run_bind ran
          obtain ⟨key, between, -, ran⟩ := exists_of_run_bind ran
          cases found : built.lookup key with
          | some old =>
              simp only [found] at ran
              cases ran
          | none =>
              simp only [found] at ran
              exact (List.prefix_append built _).trans (inductionHypothesis ran)

/-- A sequence of texts that departs from what might be expected. -/
def Value.HoldsDeparting (key : String) (texts : List String) (text : String) (value : Value) :
    Prop :=
  ∃ other behind entries,
    value = .mapping ((.text key, .sequence (texts.map Value.string ++ other :: behind)) :: entries) ∧
      other ≠ .text text

/-- What is unlike a text has another value. -/
theorem Node.Unlike.value_ne {text : String} {node : Node} (isUnlike : node.Unlike text)
    {value : Value} {before after : Anchored} (built : node.build.run before = .ok (value, after)) :
    value ≠ .text text := by
  rcases isUnlike with ⟨differs, means⟩ | ⟨start, entries, rfl⟩
  · rw [means before] at built
    cases built
    simpa using differs
  · rw [Node.build] at built
    obtain ⟨entries, between, -, built⟩ := exists_of_run_bind built
    cases built
    rintro ⟨⟩

/-- The values of items that depart from what might be expected depart from it. -/
theorem Departs.values {texts : List String} {text : String} {items : List Node}
    (departs : Departs texts text items) {values : List Value} {before after : Anchored}
    (built : (buildItems items).run before = .ok (values, after)) :
    ∃ other behind, values = texts.map Value.string ++ other :: behind ∧ other ≠ .text text := by
  obtain ⟨front, item, behind, rfl, mean, isUnlike⟩ := departs
  generalize texts.map Value.string = expected at mean ⊢
  induction mean generalizing values with
  | nil =>
      rw [List.nil_append, buildItems] at built
      obtain ⟨value, between, ofItem, built⟩ := exists_of_run_bind built
      obtain ⟨others, between, -, built⟩ := exists_of_run_bind built
      cases built
      exact ⟨value, others, rfl, isUnlike.value_ne ofItem⟩
  | cons means _ inductionHypothesis =>
      rw [List.cons_append, buildItems, run_bind_of_ok (means before)] at built
      obtain ⟨others, between, ofOthers, built⟩ := exists_of_run_bind built
      cases built
      obtain ⟨other, behind, rfl, differs⟩ := inductionHypothesis ofOthers
      exact ⟨other, behind, rfl, differs⟩

/-- The value of a root node that holds a departing sequence holds one. -/
theorem Node.HoldsDeparting.toValue {key : String} {texts : List String} {text : String}
    {root : Node} (holds : root.HoldsDeparting key texts text) {value : Value}
    (built : root.toValue = .ok value) : value.HoldsDeparting key texts text := by
  obtain ⟨start, keyNode, place, items, others, rfl, means, departs⟩ := holds
  rw [Node.toValue] at built
  rcases ran : (Node.mapping start ((keyNode, .sequence place items) :: others)).build.run [] with
    error | ⟨found, after⟩
  · rw [ran] at built
    cases built
  · rw [ran] at built
    cases built
    rw [Node.build] at ran
    obtain ⟨entries, between, ofEntries, ran⟩ := exists_of_run_bind ran
    cases ran
    rw [buildEntries, run_bind_of_ok (means [])] at ofEntries
    simp only [Value.keyCandidate?] at ofEntries
    obtain ⟨sequence, between, ofSequence, ofEntries⟩ := exists_of_run_bind ofEntries
    rw [Node.build] at ofSequence
    obtain ⟨values, between, ofItems, ofSequence⟩ := exists_of_run_bind ofSequence
    cases ofSequence
    obtain ⟨other, behind, rfl, differs⟩ := departs.values ofItems
    obtain ⟨entries, rfl⟩ := prefix_of_buildEntries ofEntries
    exact ⟨other, behind, entries, rfl, differs⟩

/-- If the stream of a text opens like that of a mapping with a sequence, and then with a
token unlike a text, the text is not loaded as a sequence with that text in that place. -/
theorem holdsDeparting_of_load {version : Option Version} {source key : List Char}
    {texts : List (List Char)} {text : String} {kind : TokenKind} (isUnlike : kind.Unlike text)
    (opens : Opens (tokenize (version.getD .v12) source).tokens
      (tokenize (version.getD .v12) source).failure (sequenceFront key texts ++ [kind]))
    {document : Option Value} (loaded : (load version source).1 = .ok document) :
    ∃ value, document = some value ∧
      value.HoldsDeparting (String.ofList key) (texts.map String.ofList) text := by
  rw [load] at loaded
  split at loaded
  · cases loaded
  · rcases ran : Compose.document.run (.ofText version source) with ⟨error | root, final⟩
    · rw [compose_eq ran] at loaded
      cases loaded
    · obtain ⟨node, rfl, holds⟩ := Compose.finds_document isUnlike key texts _
        (.ofText version source) ⟨opens, Nat.le_refl _⟩ root final ran
      rw [compose_eq ran] at loaded
      cases built : node.toValue with
      | error error =>
          simp [built, bind, Except.bind] at loaded
      | ok value =>
          simp [built, bind, Except.bind, pure, Except.pure] at loaded
          exact ⟨value, loaded.symm, holds.toValue built⟩

end Roster.Yaml
