import Roster.Proofs.Yaml.Arrival
import Roster.Proofs.Yaml.Meaning
import Roster.Yaml.Node

/-!
# Tokens that spell a value

Which tokens are read as a node with a meaning. `Takes` says of an action that it
takes tokens of some kinds in front of others, gives a result with a property, and
changes nothing else. `Spells` says that tokens of some kinds are read as a node with
a value; it holds of scalars and is kept by sequences and block mappings. `SpellsValue`
says so of the value of an entry, where a sequence needs no indentation of its own.
-/

namespace Roster.Yaml

namespace Compose

variable {α β : Type}

/-- An action fails where its first part fails, and else goes on behind it. -/
theorem run_bind (action : Compose α) (next : α → Compose β) (state : Composition) :
    (action >>= next).run state =
      match action.run state with
      | (.ok result, after) => (next result).run after
      | (.error error, after) => (.error error, after) := by
  rw [ExceptT.run_bind]
  simp only [Bind.bind, StateT.bind]
  rcases action.run state with ⟨_ | _, _⟩ <;> rfl

/-- An action goes on behind one that gives a result. -/
theorem run_bind_of_ok {action : Compose α} {next : α → Compose β} {result : α}
    {before after : Composition} (ran : action.run before = (.ok result, after)) :
    (action >>= next).run before = (next result).run after := by
  rw [run_bind, ran]

/-- An action takes tokens of some kinds if tokens of other kinds follow. It gives a
result with a property, and changes nothing but the tokens. -/
def Takes (action : Compose α) (taken following : List TokenKind) (property : α → Prop) : Prop :=
  ∀ (state : Composition) (front behind : List Token), kinds front = taken →
    kinds behind = following → state.tokens = front ++ behind →
      ∃ result, action.run state = (.ok result, { state with tokens := behind }) ∧
        property result

theorem Takes.pure {following : List TokenKind} {property : α → Prop} {result : α}
    (holds : property result) : Takes (pure result) [] following property := by
  intro state front behind none _ tokens
  obtain rfl : front = [] := List.map_eq_nil_iff.1 none
  exact ⟨result, by rw [← List.nil_append behind, ← tokens]; rfl, holds⟩

theorem Takes.bind {action : Compose α} {next : α → Compose β}
    {first second following : List TokenKind} {between : α → Prop} {property : β → Prop}
    (takes : Takes action first (second ++ following) between)
    (onward : ∀ result, between result → Takes (next result) second following property) :
    Takes (action >>= next) (first ++ second) following property := by
  intro state front behind taken follow tokens
  obtain ⟨early, late, rfl, earlyKinds, lateKinds⟩ := List.map_eq_append_iff.1 taken
  obtain ⟨result, ran, holds⟩ := takes state early (late ++ behind) earlyKinds
    (by rw [kinds_append, follow]; exact congrArg (· ++ following) lateKinds)
    (by rw [tokens, List.append_assoc])
  obtain ⟨final, ranNext, holdsFinal⟩ := onward result holds { state with tokens := late ++ behind }
    late behind lateKinds follow rfl
  exact ⟨final, by rw [run_bind_of_ok ran, ranNext], holdsFinal⟩

/-- Behind an action that takes nothing, everything is still to be taken. -/
theorem Takes.look_bind {action : Compose α} {next : α → Compose β}
    {all following : List TokenKind} {between : α → Prop} {property : β → Prop}
    (takes : Takes action [] (all ++ following) between)
    (onward : ∀ result, between result → Takes (next result) all following property) :
    Takes (action >>= next) all following property :=
  Takes.bind takes onward

/-- A result is put to use when everything is taken. -/
theorem Takes.bind_pure {action : Compose α} {use : α → β} {taken following : List TokenKind}
    {between : α → Prop} {property : β → Prop} (takes : Takes action taken following between)
    (holds : ∀ result, between result → property (use result)) :
    Takes (action >>= fun result => Pure.pure (use result)) taken following property := by
  have nothingLeft : ∀ result, between result →
      Takes (Pure.pure (use result) : Compose β) [] following property :=
    fun result isBetween => Takes.pure (holds result isBetween)
  have whole := takes.bind nothingLeft
  rwa [List.append_nil] at whole

/-- The next token is seen and stays. -/
theorem run_peek {state : Composition} {token : Token} {others : List Token}
    (tokens : state.tokens = token :: others) : peek.run state = (.ok token, state) := by
  rw [peek, run_bind_of_ok (show (get : Compose Composition).run state = (.ok state, state) from rfl),
    tokens]
  rfl

theorem takes_peek (kind : TokenKind) (following : List TokenKind) :
    Takes peek [] (kind :: following) (·.kind = kind) := by
  intro state front behind none follow tokens
  obtain rfl : front = [] := List.map_eq_nil_iff.1 none
  obtain ⟨token, others, rfl, isKind, -⟩ := List.map_eq_cons_iff.1 follow
  have ran := run_peek tokens
  exact ⟨token, by rw [ran, ← List.nil_append (token :: others), ← tokens], isKind⟩

theorem takes_peekKind (kind : TokenKind) (following : List TokenKind) :
    Takes peekKind [] (kind :: following) (· = kind) := by
  intro state front behind none follow tokens
  obtain ⟨token, ran, isKind⟩ := takes_peek kind following state front behind none follow tokens
  refine ⟨token.kind, ?_, isKind⟩
  rw [peekKind, map_eq_pure_bind, run_bind_of_ok ran]
  rfl

theorem takes_take (kind : TokenKind) (following : List TokenKind) :
    Takes take [kind] following (·.kind = kind) := by
  intro state front behind taken _ tokens
  obtain ⟨token, none, rfl, isKind, isNil⟩ := List.map_eq_cons_iff.1 taken
  obtain rfl : none = [] := List.map_eq_nil_iff.1 isNil
  refine ⟨token, ?_, isKind⟩
  rw [take, run_bind_of_ok (run_peek tokens)]
  show (Except.ok token, { state with tokens := state.tokens.tail }) = _
  rw [tokens]
  rfl

section Steps

variable {kind : TokenKind} {all second following rest : List TokenKind} {property : β → Prop}

/-- The token that is seen next decides how an action goes on. -/
theorem Takes.peek_bind {next : Token → Compose β} (opening : all ++ following = kind :: rest)
    (onward : ∀ token, token.kind = kind → Takes (next token) all following property) :
    Takes (peek >>= next) all following property :=
  Takes.look_bind (by rw [opening]; exact takes_peek kind rest) onward

/-- What is seen next decides how an action goes on. -/
theorem Takes.peekKind_bind {next : TokenKind → Compose β}
    (opening : all ++ following = kind :: rest)
    (onward : Takes (next kind) all following property) :
    Takes (peekKind >>= next) all following property := by
  refine Takes.look_bind (by rw [opening]; exact takes_peekKind kind rest) ?_
  rintro _ rfl
  exact onward

/-- A token is taken, and the rest is taken behind it. -/
theorem Takes.take_bind {next : Token → Compose β}
    (onward : ∀ token, token.kind = kind → Takes (next token) second following property) :
    Takes (take >>= next) (kind :: second) following property :=
  Takes.bind (takes_take kind (second ++ following)) onward

/-- How an action goes on may depend on all that is left. -/
theorem Takes.get_bind {next : Composition → Compose β}
    (onward : ∀ state : Composition, kinds state.tokens = all ++ following →
      Takes (next state) all following property) :
    Takes (get >>= next) all following property := by
  intro state front behind taken follow tokens
  have whole : kinds state.tokens = all ++ following := by rw [tokens, kinds_append, taken, follow]
  exact onward state whole state front behind taken follow tokens

end Steps

/-- The tokens a node may begin with that are neither properties nor an alias, in
block context as in flow context. -/
def beginsContent : TokenKind → Bool
  | .scalar _ | .blockSequenceStart | .blockMappingStart | .flowSequenceStart => true
  | _ => false

/-- The properties of a node, in front of its content. -/
def isProperty : TokenKind → Bool
  | .anchor _ | .tag _ _ => true
  | _ => false

/-- In front of a token that is no property there are no properties. -/
theorem takes_properties {kind : TokenKind} (bare : isProperty kind = false)
    (following : List TokenKind) :
    Takes properties [] (kind :: following) (· = { start := none, anchor := none }) := by
  have noAnchor : Takes anchor? [] (kind :: following) (· = none) := by
    refine Takes.peekKind_bind rfl ?_
    cases kind <;> first | exact Takes.pure rfl | cases bare
  have noTag : Takes tag? [] (kind :: following) (· = none) := by
    refine Takes.peekKind_bind rfl ?_
    cases kind <;> first | exact Takes.pure rfl | cases bare
  refine Takes.look_bind noAnchor ?_
  rintro _ rfl
  refine Takes.look_bind noTag ?_
  rintro _ rfl
  exact Takes.pure rfl

theorem takes_version (following : List TokenKind) :
    Takes version [] following fun _ => True :=
  Takes.get_bind fun _ _ => Takes.pure trivial

theorem takes_atOneOf (kinds : List TokenKind) (kind : TokenKind) (following : List TokenKind) :
    Takes (atOneOf kinds) [] (kind :: following) (· = kinds.contains kind) :=
  Takes.peekKind_bind rfl (Takes.pure rfl)

/-- Tokens of some kinds are read as a node with a value, in block context. -/
structure Spells (spelled : List TokenKind) (value : Value) : Prop where
  begins : ∃ kind others, spelled = kind :: others ∧ beginsContent kind = true
  takes : ∀ (fuel : Nat) (position : Position) (following : List TokenKind), position ≠ .flow →
    2 * spelled.length ≤ fuel → Takes (node fuel position) spelled following (·.Means value)

/-- A scalar is read wherever a node may stand. -/
theorem takes_scalar (fuel : Nat) (position : Position) (text : String)
    (following : List TokenKind) :
    Takes (node (fuel + 1) position) [.scalar text] following (·.Means (.text text)) := by
  have noEntry : (TokenKind.scalar text == .blockEntry) = false := rfl
  rw [node]
  refine Takes.peekKind_bind rfl ?_
  refine Takes.look_bind (takes_properties rfl following) ?_
  rintro _ rfl
  refine Takes.peek_bind rfl fun token isScalar => ?_
  simp only [isScalar, named, noEntry, Bool.and_false, Bool.false_eq_true, if_false]
  exact Takes.take_bind fun _ _ => Takes.pure (Node.means_scalar _ text)

/-- A scalar spells its text. -/
theorem spells_scalar (text : String) : Spells [.scalar text] (.text text) where
  begins := ⟨_, _, rfl, rfl⟩
  takes := by
    intro fuel position following _ enough
    obtain ⟨less, rfl⟩ := Nat.exists_eq_add_of_le' (show 1 ≤ fuel by simp at enough; omega)
    exact takes_scalar less position text following

/-- A node is read if none of the tokens that would leave it empty follows. -/
theorem takes_nodeUnless {fuel : Nat} {stops : List TokenKind} {position : Position}
    {spelled : List TokenKind} {value : Value} (spells : Spells spelled value)
    (noStop : ∀ kind ∈ stops, beginsContent kind = false) (inBlock : position ≠ .flow)
    (enough : 2 * spelled.length + 1 ≤ fuel) (place : Mark) (following : List TokenKind) :
    Takes (nodeUnless fuel stops position place) spelled following (·.Means value) := by
  obtain ⟨kind, others, rfl, content⟩ := spells.begins
  obtain ⟨less, rfl⟩ := Nat.exists_eq_add_of_le' (Nat.le_of_add_left_le enough)
  have goesOn : stops.contains kind = false := by
    rw [List.contains_eq_mem, decide_eq_false_iff_not]
    intro member
    rw [noStop kind member] at content
    cases content
  rw [nodeUnless]
  refine Takes.look_bind (takes_atOneOf stops kind (others ++ following)) ?_
  rintro _ rfl
  rw [goesOn]
  exact spells.takes less position following inBlock (by omega)

/-- The tokens of the entries of a block sequence. -/
def sequenceEntries (spelled : List (List TokenKind)) : List TokenKind :=
  spelled.flatMap (.blockEntry :: ·)

/-- The entries of a block sequence are read as nodes that mean their values. -/
theorem takes_blockSequence {spelled : List (List TokenKind)} {values : List Value}
    (spell : List.Forall₂ Spells spelled values) {fuel : Nat}
    (enough : 2 * (sequenceEntries spelled).length + 1 ≤ fuel) (since : Mark)
    (following : List TokenKind) :
    Takes (blockSequence fuel since) (sequenceEntries spelled ++ [.blockEnd]) following
      (List.Forall₂ Node.Means · values) := by
  induction spell generalizing fuel with
  | nil =>
      obtain ⟨less, rfl⟩ := Nat.exists_eq_add_of_le' (Nat.le_of_add_left_le enough)
      rw [blockSequence]
      refine Takes.peek_bind rfl fun token isEnd => ?_
      simp only [isEnd]
      exact Takes.take_bind fun _ _ => Takes.pure .nil
  | @cons item value spelled values spells _ inductionHypothesis =>
      have whole : sequenceEntries (item :: spelled) ++ [.blockEnd] =
          .blockEntry :: (item ++ (sequenceEntries spelled ++ [.blockEnd])) := by
        simp [sequenceEntries]
      have length : (sequenceEntries (item :: spelled)).length =
          item.length + 1 + (sequenceEntries spelled).length := by
        rw [sequenceEntries, List.flatMap_cons, List.length_append, List.length_cons]
        rfl
      obtain ⟨less, rfl⟩ := Nat.exists_eq_add_of_le' (show 1 ≤ fuel by omega)
      rw [whole, blockSequence]
      refine Takes.peek_bind rfl fun token isEntry => ?_
      simp only [isEntry]
      refine Takes.take_bind fun entry _ => ?_
      refine Takes.bind (takes_nodeUnless spells (by decide) (by decide) (by omega) _ _)
        fun node means => ?_
      exact (inductionHypothesis (by omega)).bind_pure fun nodes mean => .cons means mean

/-- The entries of a block sequence between its start and its end spell a sequence. -/
theorem spells_sequence {spelled : List (List TokenKind)} {values : List Value}
    (spell : List.Forall₂ Spells spelled values) :
    Spells (.blockSequenceStart :: (sequenceEntries spelled ++ [.blockEnd]))
      (.sequence values) where
  begins := ⟨_, _, rfl, rfl⟩
  takes := by
    intro fuel position following inBlock enough
    simp only [List.length_cons, List.length_append, List.length_nil] at enough
    obtain ⟨less, rfl⟩ := Nat.exists_eq_add_of_le' (show 1 ≤ fuel by omega)
    have notFlow : (position != .flow) = true := by simpa using inBlock
    rw [node]
    refine Takes.peekKind_bind rfl ?_
    refine Takes.look_bind (takes_properties rfl _) ?_
    rintro _ rfl
    refine Takes.peek_bind rfl fun token isStart => ?_
    simp only [isStart, named, notFlow]
    rw [if_neg (by simp), if_neg (by decide), if_neg (by decide), if_pos (by decide)]
    refine Takes.take_bind fun start _ => ?_
    exact (takes_blockSequence spell (by omega) start.start following).bind_pure
      fun nodes mean => Node.means_sequence _ mean

/-- The tokens of the entries of a block mapping whose keys are scalars. -/
def mappingEntries (spelled : List (String × List TokenKind)) : List TokenKind :=
  spelled.flatMap fun entry => .key :: .scalar entry.1 :: .value :: entry.2

/-- Tokens of some kinds are read as the value of an entry of a block mapping, in front
of the next entry or the end of the mapping. -/
def SpellsValue (spelled : List TokenKind) (value : Value) : Prop :=
  ∀ (fuel : Nat) (following : List TokenKind), 2 * spelled.length + 4 ≤ fuel →
    following.head? ∈ [some .key, some .blockEnd] →
      Takes (blockValue fuel) (.value :: spelled) following (·.Means value)

/-- What spells a value anywhere in block context spells it behind a colon. -/
theorem Spells.spellsValue {spelled : List TokenKind} {value : Value}
    (spells : Spells spelled value) : SpellsValue spelled value := by
  intro fuel following enough _
  obtain ⟨less, rfl⟩ := Nat.exists_eq_add_of_le' (show 1 ≤ fuel by omega)
  rw [blockValue]
  refine Takes.peekKind_bind rfl ?_
  exact Takes.take_bind fun colon _ =>
    takes_nodeUnless spells (by decide) (by decide) (by omega) _ _

/-- The entries of a sequence without indentation of its own are read as nodes that mean
their values, up to a token that is no entry. -/
theorem takes_plainSequence {spelled : List (List TokenKind)} {values : List Value}
    (spell : List.Forall₂ Spells spelled values) {fuel : Nat}
    (enough : 2 * (sequenceEntries spelled).length + 1 ≤ fuel) {kind : TokenKind}
    (noEntry : kind ≠ .blockEntry) (following : List TokenKind) :
    Takes (plainSequence fuel) (sequenceEntries spelled) (kind :: following)
      (List.Forall₂ Node.Means · values) := by
  induction spell generalizing fuel with
  | nil =>
      obtain ⟨less, rfl⟩ := Nat.exists_eq_add_of_le' (Nat.le_of_add_left_le enough)
      rw [plainSequence]
      refine Takes.peekKind_bind rfl ?_
      rw [if_neg (by simpa using noEntry)]
      exact Takes.pure .nil
  | @cons item value spelled values spells _ inductionHypothesis =>
      have whole : sequenceEntries (item :: spelled) =
          .blockEntry :: (item ++ sequenceEntries spelled) := by
        simp [sequenceEntries]
      have length : (sequenceEntries (item :: spelled)).length =
          item.length + 1 + (sequenceEntries spelled).length := by
        rw [whole, List.length_cons, List.length_append]
        omega
      obtain ⟨less, rfl⟩ := Nat.exists_eq_add_of_le' (show 1 ≤ fuel by omega)
      rw [whole, plainSequence]
      refine Takes.peekKind_bind rfl ?_
      refine Takes.take_bind fun entry _ => ?_
      refine Takes.bind (takes_nodeUnless spells (by decide) (by decide) (by omega) _ _)
        fun node means => ?_
      exact (inductionHypothesis (by omega)).bind_pure fun nodes mean => .cons means mean

/-- The entries of a block sequence that is not indented spell the value of an entry. -/
theorem spellsValue_plainSequence {spelled : List (List TokenKind)} {values : List Value}
    (spell : List.Forall₂ Spells spelled values) (nonempty : spelled ≠ []) :
    SpellsValue (sequenceEntries spelled) (.sequence values) := by
  intro fuel following enough isNext
  obtain ⟨kind, following, rfl⟩ : ∃ kind rest, following = kind :: rest := by
    cases following with
    | nil => simp at isNext
    | cons kind rest => exact ⟨kind, rest, rfl⟩
  have noEntry : kind ≠ .blockEntry := by
    rintro rfl
    simp at isNext
  obtain ⟨item, others, rfl⟩ := List.exists_cons_of_ne_nil nonempty
  have opening : sequenceEntries (item :: others) ++ kind :: following =
      .blockEntry :: (item ++ sequenceEntries others ++ kind :: following) := by
    simp [sequenceEntries]
  obtain ⟨less, rfl⟩ := Nat.exists_eq_add_of_le' (show 3 ≤ fuel by omega)
  rw [blockValue]
  refine Takes.peekKind_bind rfl ?_
  refine Takes.take_bind fun colon _ => ?_
  rw [nodeUnless]
  refine Takes.look_bind (by rw [opening]; exact takes_atOneOf _ .blockEntry _) ?_
  rintro _ rfl
  rw [if_neg (by decide), node]
  refine Takes.peekKind_bind opening ?_
  refine Takes.look_bind (by rw [opening]; exact takes_properties rfl _) ?_
  rintro _ rfl
  refine Takes.peek_bind opening fun token isEntry => ?_
  simp only [isEntry, named]
  exact (takes_plainSequence spell (by omega) noEntry following).bind_pure
    fun nodes mean => Node.means_sequence _ mean

/-- The tokens of the items of a flow sequence behind the first one. -/
def laterItems (texts : List String) : List TokenKind :=
  texts.flatMap fun text => [.flowEntry, .scalar text]

/-- The items of a flow sequence behind the first one are read as their texts. -/
theorem takes_laterItems (texts : List String) {fuel : Nat}
    (enough : 2 * (laterItems texts).length + 1 ≤ fuel) (since : Mark)
    (following : List TokenKind) :
    Takes (flowSequence fuel since false) (laterItems texts ++ [.flowSequenceEnd]) following
      (List.Forall₂ Node.Means · (texts.map Value.string)) := by
  induction texts generalizing fuel with
  | nil =>
      obtain ⟨less, rfl⟩ := Nat.exists_eq_add_of_le' (Nat.le_of_add_left_le enough)
      rw [flowSequence]
      refine Takes.peek_bind rfl fun token isEnd => ?_
      simp only [isEnd]
      exact Takes.take_bind fun _ _ => Takes.pure .nil
  | cons text others inductionHypothesis =>
      have whole : laterItems (text :: others) ++ [.flowSequenceEnd] =
          .flowEntry :: ([.scalar text] ++ (laterItems others ++ [.flowSequenceEnd])) := rfl
      have length : (laterItems (text :: others)).length = (laterItems others).length + 2 := rfl
      obtain ⟨less, rfl⟩ := Nat.exists_eq_add_of_le' (show 2 ≤ fuel by omega)
      rw [whole, flowSequence]
      refine Takes.peek_bind rfl fun token isComma => ?_
      simp only [isComma]
      refine Takes.take_bind fun _ _ => ?_
      refine Takes.peek_bind rfl fun entry isItem => ?_
      simp only [isItem]
      refine Takes.bind (takes_scalar less .flow text _) fun node means => ?_
      exact (inductionHypothesis (by omega)).bind_pure fun nodes mean => .cons means mean

/-- The items of a flow sequence are read as their texts. -/
theorem takes_flowSequence (first : String) (others : List String) {fuel : Nat}
    (enough : 2 * (laterItems others).length + 3 ≤ fuel) (since : Mark)
    (following : List TokenKind) :
    Takes (flowSequence fuel since true)
      (.scalar first :: (laterItems others ++ [.flowSequenceEnd])) following
      (List.Forall₂ Node.Means · ((first :: others).map Value.string)) := by
  obtain ⟨less, rfl⟩ := Nat.exists_eq_add_of_le' (show 2 ≤ fuel by omega)
  rw [flowSequence]
  refine Takes.peek_bind rfl fun token isItem => ?_
  simp only [isItem]
  rw [if_neg (by simp), if_neg (by simp), if_neg (by simp)]
  refine Takes.peek_bind rfl fun entry isFirst => ?_
  simp only [isFirst]
  refine Takes.bind (takes_scalar less .flow first _) fun node means => ?_
  exact (takes_laterItems others (by omega) since following).bind_pure
    fun nodes mean => .cons means mean

/-- What is read behind the opening bracket as the items of a sequence spells it. -/
theorem spells_flow {inside : List TokenKind} {values : List Value}
    (takes : ∀ (fuel : Nat) (since : Mark) (following : List TokenKind),
      2 * inside.length + 1 ≤ fuel →
        Takes (flowSequence fuel since true) inside following (List.Forall₂ Node.Means · values)) :
    Spells (.flowSequenceStart :: inside) (.sequence values) where
  begins := ⟨_, _, rfl, rfl⟩
  takes := by
    intro fuel position following _ enough
    rw [List.length_cons] at enough
    obtain ⟨less, rfl⟩ := Nat.exists_eq_add_of_le' (show 1 ≤ fuel by omega)
    rw [node]
    refine Takes.peekKind_bind rfl ?_
    refine Takes.look_bind (takes_properties rfl _) ?_
    rintro _ rfl
    refine Takes.peek_bind rfl fun token isStart => ?_
    simp only [isStart, named]
    rw [if_neg (by simp), if_pos (by decide)]
    refine Takes.take_bind fun start _ => ?_
    exact (takes less start.start following (by omega)).bind_pure
      fun nodes mean => Node.means_sequence _ mean

/-- Scalars with commas between them spell a sequence of texts between brackets. -/
theorem spells_flowSequence (first : String) (others : List String) :
    Spells (.flowSequenceStart :: .scalar first :: (laterItems others ++ [.flowSequenceEnd]))
      (.sequence ((first :: others).map Value.string)) := by
  refine spells_flow fun fuel since following enough => ?_
  simp only [List.length_cons, List.length_append, List.length_nil] at enough
  exact takes_flowSequence first others (by omega) since following

/-- Brackets with nothing between them spell the empty sequence. -/
theorem spells_emptyFlow :
    Spells [.flowSequenceStart, .flowSequenceEnd] (.sequence []) := by
  refine spells_flow fun fuel since following enough => ?_
  obtain ⟨less, rfl⟩ := Nat.exists_eq_add_of_le' (Nat.le_of_add_left_le enough)
  rw [flowSequence]
  refine Takes.peek_bind rfl fun token isEnd => ?_
  simp only [isEnd]
  exact Takes.take_bind fun _ _ => Takes.pure .nil

/-- Behind an entry of a block mapping, the next one begins or the mapping ends. -/
theorem head_mappingEntries (spelled : List (String × List TokenKind))
    (following : List TokenKind) :
    (mappingEntries spelled ++ [TokenKind.blockEnd] ++ following).head? ∈
      [some TokenKind.key, some TokenKind.blockEnd] := by
  cases spelled <;> simp [mappingEntries]

/-- The tokens of an entry spell its key and its value. -/
structure SpellsEntry (spelled : String × List TokenKind) (meant : String × Value) : Prop where
  key : spelled.1 = meant.1
  value : SpellsValue spelled.2 meant.2

/-- The entries of a block mapping are read as nodes that mean their keys and values. -/
theorem takes_blockMapping {spelled : List (String × List TokenKind)}
    {meant : List (String × Value)} (spell : List.Forall₂ SpellsEntry spelled meant) {fuel : Nat}
    (enough : 2 * (mappingEntries spelled).length + 1 ≤ fuel) (since : Mark)
    (following : List TokenKind) :
    Takes (blockMapping fuel since) (mappingEntries spelled ++ [.blockEnd]) following
      (List.Forall₂ MeansEntry · meant) := by
  induction spell generalizing fuel with
  | nil =>
      obtain ⟨less, rfl⟩ := Nat.exists_eq_add_of_le' (Nat.le_of_add_left_le enough)
      rw [blockMapping]
      refine Takes.peek_bind rfl fun token isEnd => ?_
      simp only [isEnd]
      refine Takes.look_bind (takes_version _) fun version _ => ?_
      exact Takes.take_bind fun _ _ => Takes.pure .nil
  | @cons entry meant spelled others spells _ inductionHypothesis =>
      have whole : mappingEntries (entry :: spelled) ++ [.blockEnd] =
          .key :: ([.scalar entry.1] ++
            ((.value :: entry.2) ++ (mappingEntries spelled ++ [.blockEnd]))) := by
        simp [mappingEntries]
      have length : (mappingEntries (entry :: spelled)).length =
          entry.2.length + 3 + (mappingEntries spelled).length := by
        rw [mappingEntries, List.flatMap_cons, List.length_append]
        rfl
      obtain ⟨less, rfl⟩ := Nat.exists_eq_add_of_le' (show 1 ≤ fuel by omega)
      rw [whole, blockMapping]
      refine Takes.peek_bind rfl fun token isKey => ?_
      simp only [isKey]
      refine Takes.take_bind fun key _ => ?_
      refine Takes.bind (takes_nodeUnless (spells_scalar entry.1) (by decide) (by decide)
        (by simp; omega) _ _) fun keyNode meansKey => ?_
      refine Takes.bind (spells.value less _ (by omega) (head_mappingEntries spelled following))
        fun valueNode means => ?_
      exact (inductionHypothesis (by omega)).bind_pure fun nodes mean =>
        .cons ⟨spells.key ▸ meansKey, means⟩ mean

/-- The entries of a block mapping between its start and its end spell a mapping, if
no key comes twice. -/
theorem spells_mapping {spelled : List (String × List TokenKind)} {meant : List (String × Value)}
    (spell : List.Forall₂ SpellsEntry spelled meant) (distinct : (meant.map Prod.fst).Nodup) :
    Spells (.blockMappingStart :: (mappingEntries spelled ++ [.blockEnd]))
      (.mapping (meant.map fun entry => (.text entry.1, entry.2))) where
  begins := ⟨_, _, rfl, rfl⟩
  takes := by
    intro fuel position following inBlock enough
    simp only [List.length_cons, List.length_append, List.length_nil] at enough
    obtain ⟨less, rfl⟩ := Nat.exists_eq_add_of_le' (show 1 ≤ fuel by omega)
    have notFlow : (position != .flow) = true := by simpa using inBlock
    rw [node]
    refine Takes.peekKind_bind rfl ?_
    refine Takes.look_bind (takes_properties rfl _) ?_
    rintro _ rfl
    refine Takes.peek_bind rfl fun token isStart => ?_
    simp only [isStart, named, notFlow]
    rw [if_neg (by simp), if_neg (by decide), if_neg (by decide), if_neg (by decide),
      if_pos (by decide)]
    refine Takes.take_bind fun start _ => ?_
    exact (takes_blockMapping spell (by omega) start.start following).bind_pure
      fun nodes mean => Node.means_mapping _ mean distinct

/-- Without end markers of a document there is nothing to skip. -/
theorem takes_skipDocumentEnds (count : Nat) {kind : TokenKind} (noMarker : kind ≠ .documentEnd)
    (following : List TokenKind) :
    Takes (skipDocumentEnds count) [] (kind :: following) fun _ => True := by
  cases count with
  | zero => exact Takes.pure trivial
  | succ less =>
      rw [skipDocumentEnds]
      refine Takes.peekKind_bind rfl ?_
      rw [if_neg (by simpa using noMarker)]
      exact Takes.pure trivial

/-- At the end of the stream there is no end marker. -/
theorem takes_documentEnd : Takes documentEnd [] [.streamEnd] (· = false) := by
  rw [documentEnd]
  exact Takes.peekKind_bind rfl (Takes.pure rfl)

/-- At the end of the stream there is no other document. -/
theorem takes_expectEnd (root : Node) (following : List TokenKind) :
    Takes (expectEnd root false) [] (.streamEnd :: following) fun _ => True := by
  rw [expectEnd]
  refine Takes.peek_bind rfl fun next _ => ?_
  refine Takes.look_bind (takes_version _) fun version _ => ?_
  rw [if_neg (by simp)]
  refine Takes.get_bind fun state _ => ?_
  refine Takes.look_bind (takes_skipDocumentEnds _ (by decide) following) fun _ _ => ?_
  exact Takes.peekKind_bind rfl (Takes.pure trivial)

/-- A stream that spells a value holds one document with that meaning. -/
theorem takes_document {spelled : List TokenKind} {value : Value} (spells : Spells spelled value) :
    Takes document (.streamStart :: spelled) [.streamEnd]
      fun root => ∃ node, root = some node ∧ node.Means value := by
  obtain ⟨kind, others, rfl, content⟩ := spells.begins
  rw [document]
  refine Takes.take_bind fun _ _ => Takes.get_bind fun state whole => ?_
  refine Takes.peek_bind rfl fun next isNext => ?_
  have noEnd : (kind == .streamEnd) = false := by cases kind <;> first | rfl | cases content
  have inside : isStreamLevel kind = false := by cases kind <;> first | rfl | cases content
  have length : state.tokens.length = others.length + 2 := by
    have lengths := congrArg List.length whole
    simpa [kinds] using lengths
  simp only [isNext, noEnd, inside, Bool.false_eq_true, if_false]
  have read := spells.takes (4 * state.tokens.length + 4) .block [.streamEnd] (by decide)
    (by rw [List.length_cons]; omega)
  rw [← List.append_nil (kind :: others)]
  refine Takes.bind read fun root means => ?_
  refine Takes.look_bind takes_documentEnd ?_
  rintro _ rfl
  refine Takes.look_bind (takes_expectEnd root []) fun _ _ => ?_
  exact Takes.pure ⟨root, rfl, means⟩

end Compose

/-- A text as the grammar finds it, under the rules of a version. -/
def Composition.ofText (version : Option Version) (text : List Char) : Composition :=
  { tokens := (tokenize (version.getD .v12) text).tokens
    failure := (tokenize (version.getD .v12) text).failure
    version
    handles := defaultHandles
    anchors := [] }

theorem compose_eq {version : Option Version} {text : List Char}
    {result : Except Error (Option Node)} {final : Composition}
    (ran : Compose.document.run (.ofText version text) = (result, final)) :
    compose version text = (result, final.version) := by
  rw [Composition.ofText] at ran
  simp only [compose, ran]

/-- The root node of a text that spells a value has that meaning. -/
theorem compose_of_spells {version : Option Version} {text : List Char}
    {spelled : List TokenKind} {value : Value} (spells : Compose.Spells spelled value)
    (tokens : kinds (tokenize (version.getD .v12) text).tokens =
      .streamStart :: (spelled ++ [.streamEnd])) :
    ∃ root, compose version text = (.ok (some root), version) ∧ root.Means value := by
  have whole : kinds (tokenize (version.getD .v12) text).tokens =
      (.streamStart :: spelled) ++ [.streamEnd] := tokens
  obtain ⟨front, behind, split, frontKinds, behindKinds⟩ := List.map_eq_append_iff.1 whole
  obtain ⟨result, ran, root, rfl, means⟩ := Compose.takes_document spells
    (.ofText version text) front behind frontKinds behindKinds split
  exact ⟨root, compose_eq ran, means⟩

end Roster.Yaml
