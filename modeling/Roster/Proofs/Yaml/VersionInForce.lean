import Roster.Proofs.Yaml.Grammar
import Roster.Yaml.Document

/-!
# The version in force

Reading a text depends on the version that is in force before it only through the
rules of that version, and those of the latest version are in force if there is
none. So a text is read alike under versions that stand for the same rules: every
action of the grammar takes states that differ in nothing else to such states.
-/

namespace Roster.Yaml

namespace Compose

variable {α β : Type}

/-- States that differ at most in how they say which rules are in force. -/
structure Alike (left right : Composition) : Prop where
  tokens : left.tokens = right.tokens
  failure : left.failure = right.failure
  rules : left.version.getD .v12 = right.version.getD .v12
  handles : left.handles = right.handles
  anchors : left.anchors = right.anchors

/-- An action gives the same result for states that are alike, and leaves them alike. -/
def Respects (action : Compose α) : Prop :=
  ∀ left right, Alike left right →
    (action.run left).1 = (action.run right).1 ∧ Alike (action.run left).2 (action.run right).2

theorem Respects.pure (result : α) : Respects (pure result) :=
  fun _ _ alike => ⟨rfl, alike⟩

theorem Respects.throw (error : Error) : Respects (throw error : Compose α) :=
  fun _ _ alike => ⟨rfl, alike⟩

theorem Respects.bind {action : Compose α} {next : α → Compose β} (first : Respects action)
    (onward : ∀ result, Respects (next result)) : Respects (action >>= next) := by
  intro left right alike
  obtain ⟨same, alikeAfter⟩ := first left right alike
  rw [run_bind, run_bind]
  cases ranLeft : action.run left with
  | mk resultLeft afterLeft =>
      cases ranRight : action.run right with
      | mk resultRight afterRight =>
          rw [ranLeft, ranRight] at same alikeAfter
          obtain rfl : resultLeft = resultRight := same
          cases resultLeft with
          | error error => exact ⟨rfl, alikeAfter⟩
          | ok result => exact onward result afterLeft afterRight alikeAfter

theorem Respects.ite {condition : Prop} [Decidable condition] {first second : Compose α}
    (respectsFirst : Respects first) (respectsSecond : Respects second) :
    Respects (if condition then first else second) := by
  split
  · exact respectsFirst
  · exact respectsSecond

/-- An action may depend on the state if it is the same for states that are alike. -/
theorem Respects.get_bind {next : Composition → Compose β}
    (same : ∀ {left right}, Alike left right → next left = next right)
    (onward : ∀ state, Respects (next state)) : Respects (get >>= next) := by
  intro left right alike
  have ran : ∀ state, (get >>= next).run state = (next state).run state := fun _ => rfl
  rw [ran, ran, same alike]
  exact onward right left right alike

theorem Respects.modify {change : Composition → Composition}
    (kept : ∀ {left right}, Alike left right → Alike (change left) (change right)) :
    Respects (modify change) :=
  fun _ _ alike => ⟨rfl, kept alike⟩

theorem respects_peek : Respects peek := by
  rintro ⟨tokens, failure, _, _, _⟩ ⟨_, _, _, _, _⟩ alike
  obtain rfl : tokens = _ := alike.tokens
  obtain rfl : failure = _ := alike.failure
  cases tokens with
  | cons => exact ⟨rfl, alike⟩
  | nil => cases failure <;> exact ⟨rfl, alike⟩

theorem respects_take : Respects take :=
  respects_peek.bind fun token => Respects.bind
    (Respects.modify fun alike => { alike with tokens := congrArg List.tail alike.tokens })
    fun _ => Respects.pure token

theorem respects_peekKind : Respects peekKind := by
  rw [peekKind, map_eq_pure_bind]
  exact respects_peek.bind fun token => Respects.pure token.kind

theorem respects_atOneOf (kinds : List TokenKind) : Respects (atOneOf kinds) :=
  respects_peekKind.bind fun _ => Respects.pure _

theorem respects_version : Respects version :=
  Respects.get_bind (fun alike => by rw [alike.rules]) fun _ => Respects.pure _

theorem respects_tag? : Respects tag? := by
  refine respects_peekKind.bind fun kind => ?_
  split
  · exact respects_take.bind fun token => Respects.pure _
  · exact Respects.pure none

theorem respects_anchor? : Respects anchor? := by
  refine respects_peekKind.bind fun kind => ?_
  split
  · exact respects_take.bind fun token => Respects.pure _
  · exact Respects.pure none

theorem respects_checkHandle (handle : Option String) (start place : Mark) :
    Respects (checkHandle handle start place) := by
  cases handle with
  | none => exact Respects.pure ()
  | some name =>
      refine Respects.get_bind (fun alike => by rw [alike.handles]) fun state => ?_
      split
      · exact Respects.pure ()
      · exact Respects.throw _

theorem respects_properties : Respects properties := by
  refine respects_anchor?.bind fun anchor => ?_
  split
  · refine respects_tag?.bind fun tag => ?_
    split
    · exact (respects_checkHandle _ _ _).bind fun _ => Respects.pure _
    · exact Respects.pure _
  · refine respects_tag?.bind fun tag => ?_
    split
    · exact Respects.pure _
    · refine respects_anchor?.bind fun anchor => ?_
      split
      · exact (respects_checkHandle _ _ _).bind fun _ => Respects.pure _
      · exact (respects_checkHandle _ _ _).bind fun _ => Respects.pure _

theorem respects_aliased (name : String) : Respects (aliased name) := by
  refine respects_take.bind fun token => ?_
  refine Respects.get_bind (fun alike => by rw [alike.anchors]) fun state => ?_
  split
  · exact Respects.pure _
  · exact Respects.throw _

theorem Respects.named {content : Compose Node} (respects : Respects content)
    (anchor : Option String) (start : Mark) : Respects (named anchor start content) := by
  cases anchor with
  | none => exact respects
  | some name =>
      refine Respects.bind (Respects.modify fun alike =>
        { alike with anchors := congrArg ((name, start) :: ·) alike.anchors }) fun _ => ?_
      exact respects.bind fun node => Respects.pure _

/-- The actions of the grammar respect states that are alike as long as the fuel
lasts. -/
structure RespectsWith (fuel : Nat) : Prop where
  node : ∀ position, Respects (node fuel position)
  nodeUnless : ∀ stops position place, Respects (nodeUnless fuel stops position place)
  blockSequence : ∀ since, Respects (blockSequence fuel since)
  plainSequence : Respects (plainSequence fuel)
  blockValue : Respects (blockValue fuel)
  blockMapping : ∀ since, Respects (blockMapping fuel since)
  flowSequence : ∀ since isFirst, Respects (flowSequence fuel since isFirst)
  flowPair : Respects (flowPair fuel)
  flowValue : ∀ stops, Respects (flowValue fuel stops)
  flowMapping : ∀ since isFirst, Respects (flowMapping fuel since isFirst)

section Grammar

variable {fuel : Nat} (below : RespectsWith fuel)
include below

theorem RespectsWith.node_succ (position : Position) :
    Respects (Compose.node (fuel + 1) position) := by
  rw [Compose.node]
  refine respects_peekKind.bind fun kind => ?_
  split
  · exact respects_aliased _
  · refine respects_properties.bind fun properties => respects_peek.bind fun token => ?_
    refine Respects.ite ((below.plainSequence.bind fun _ => Respects.pure _).named _ _) ?_
    split
    · exact (respects_take.bind fun _ => Respects.pure _).named _ _
    · refine Respects.ite ((respects_take.bind fun _ =>
        (below.flowSequence _ _).bind fun _ => Respects.pure _).named _ _) ?_
      refine Respects.ite ((respects_take.bind fun _ =>
        (below.flowMapping _ _).bind fun _ => Respects.pure _).named _ _) ?_
      refine Respects.ite ((respects_take.bind fun _ =>
        (below.blockSequence _).bind fun _ => Respects.pure _).named _ _) ?_
      refine Respects.ite ((respects_take.bind fun _ =>
        (below.blockMapping _).bind fun _ => Respects.pure _).named _ _) ?_
      exact Respects.ite ((Respects.pure _).named _ _) (Respects.throw _)

theorem RespectsWith.nodeUnless_succ (stops : List TokenKind) (position : Position) (place : Mark) :
    Respects (Compose.nodeUnless (fuel + 1) stops position place) := by
  rw [Compose.nodeUnless]
  exact (respects_atOneOf stops).bind fun _ => Respects.ite (Respects.pure _) (below.node position)

theorem RespectsWith.blockSequence_succ (since : Mark) :
    Respects (Compose.blockSequence (fuel + 1) since) := by
  rw [Compose.blockSequence]
  refine respects_peek.bind fun token => Respects.ite ?_ ?_
  · exact respects_take.bind fun entry => (below.nodeUnless _ _ _).bind fun item =>
      (below.blockSequence since).bind fun _ => Respects.pure _
  · exact Respects.ite (respects_take.bind fun _ => Respects.pure _) (Respects.throw _)

theorem RespectsWith.plainSequence_succ : Respects (Compose.plainSequence (fuel + 1)) := by
  rw [Compose.plainSequence]
  refine respects_peekKind.bind fun kind => Respects.ite ?_ (Respects.pure _)
  exact respects_take.bind fun entry => (below.nodeUnless _ _ _).bind fun item =>
    below.plainSequence.bind fun _ => Respects.pure _

theorem RespectsWith.blockValue_succ : Respects (Compose.blockValue (fuel + 1)) := by
  rw [Compose.blockValue]
  refine respects_peekKind.bind fun kind => Respects.ite ?_ ?_
  · exact respects_take.bind fun colon => below.nodeUnless _ _ _
  · exact respects_peek.bind fun _ => Respects.pure _

theorem RespectsWith.blockMapping_succ (since : Mark) :
    Respects (Compose.blockMapping (fuel + 1) since) := by
  rw [Compose.blockMapping]
  refine respects_peek.bind fun token => Respects.ite ?_ ?_
  · exact respects_take.bind fun key => (below.nodeUnless _ _ _).bind fun key =>
      below.blockValue.bind fun value => (below.blockMapping since).bind fun _ => Respects.pure _
  · refine respects_version.bind fun version => Respects.ite ?_ ?_
    · exact below.blockValue.bind fun value =>
        (below.blockMapping since).bind fun _ => Respects.pure _
    · exact Respects.ite (respects_take.bind fun _ => Respects.pure _) (Respects.throw _)

theorem RespectsWith.flowSequence_succ (since : Mark) (isFirst : Bool) :
    Respects (Compose.flowSequence (fuel + 1) since isFirst) := by
  have onward (item : Node) :
      Respects (do return item :: (<- Compose.flowSequence fuel since false)) :=
    (below.flowSequence since false).bind fun _ => Respects.pure _
  have entry : Respects (do
      let entry <- peek
      if entry.kind == .flowSequenceEnd then
        let _ <- take
        return []
      else
        let item <- if entry.kind == .key then Compose.flowPair fuel else Compose.node fuel .flow
        return item :: (<- Compose.flowSequence fuel since false)) := by
    refine respects_peek.bind fun entry => Respects.ite ?_ ?_
    · exact respects_take.bind fun _ => Respects.pure _
    · exact Respects.ite (below.flowPair.bind onward) ((below.node _).bind onward)
  rw [Compose.flowSequence]
  refine respects_peek.bind fun token => Respects.ite ?_ (Respects.ite (Respects.throw _) ?_)
  · exact respects_take.bind fun _ => Respects.pure _
  · exact Respects.ite (respects_take.bind fun _ => entry) entry

theorem RespectsWith.flowPair_succ : Respects (Compose.flowPair (fuel + 1)) := by
  rw [Compose.flowPair]
  exact respects_take.bind fun mark => (below.nodeUnless _ _ _).bind fun key =>
    (below.flowValue _).bind fun _ => Respects.pure _

theorem RespectsWith.flowValue_succ (stops : List TokenKind) :
    Respects (Compose.flowValue (fuel + 1) stops) := by
  rw [Compose.flowValue]
  refine respects_peekKind.bind fun kind => Respects.ite ?_ ?_
  · exact respects_take.bind fun colon => below.nodeUnless _ _ _
  · exact respects_peek.bind fun _ => Respects.pure _

theorem RespectsWith.flowMapping_succ (since : Mark) (isFirst : Bool) :
    Respects (Compose.flowMapping (fuel + 1) since isFirst) := by
  have onward (key value : Node) :
      Respects (do return (key, value) :: (<- Compose.flowMapping fuel since false)) :=
    (below.flowMapping since false).bind fun _ => Respects.pure _
  have entry : Respects (do
      let entry <- peek
      if entry.kind == .key then
        let mark <- take
        let key <- Compose.nodeUnless fuel [.value, .flowEntry, .flowMappingEnd] .flow mark.finish
        let value <- Compose.flowValue fuel [.flowEntry, .flowMappingEnd]
        return (key, value) :: (<- Compose.flowMapping fuel since false)
      else if entry.kind == .value && (<- version) == .v12 then
        let value <- Compose.flowValue fuel [.flowEntry, .flowMappingEnd]
        return (empty entry.finish, value) :: (<- Compose.flowMapping fuel since false)
      else if entry.kind == .flowMappingEnd then
        let _ <- take
        return []
      else
        let key <- Compose.node fuel .flow
        return (key, empty (<- peek).start) :: (<- Compose.flowMapping fuel since false)) := by
    refine respects_peek.bind fun entry => Respects.ite ?_ ?_
    · exact respects_take.bind fun mark => (below.nodeUnless _ _ _).bind fun key =>
        (below.flowValue _).bind (onward key)
    · refine respects_version.bind fun version => Respects.ite ?_ (Respects.ite ?_ ?_)
      · exact (below.flowValue _).bind (onward _)
      · exact respects_take.bind fun _ => Respects.pure _
      · exact (below.node _).bind fun key => respects_peek.bind fun _ => onward key _
  rw [Compose.flowMapping]
  refine respects_peek.bind fun token => Respects.ite ?_ (Respects.ite (Respects.throw _) ?_)
  · exact respects_take.bind fun _ => Respects.pure _
  · exact Respects.ite (respects_take.bind fun _ => entry) entry

end Grammar

theorem respectsWith : ∀ fuel, RespectsWith fuel
  | 0 =>
    { node := fun _ => Respects.pure _
      nodeUnless := fun _ _ _ => Respects.pure _
      blockSequence := fun _ => Respects.pure _
      plainSequence := Respects.pure _
      blockValue := Respects.pure _
      blockMapping := fun _ => Respects.pure _
      flowSequence := fun _ _ => Respects.pure _
      flowPair := Respects.pure _
      flowValue := fun _ => Respects.pure _
      flowMapping := fun _ _ => Respects.pure _ }
  | fuel + 1 =>
    have below := respectsWith fuel
    { node := below.node_succ
      nodeUnless := below.nodeUnless_succ
      blockSequence := below.blockSequence_succ
      plainSequence := below.plainSequence_succ
      blockValue := below.blockValue_succ
      blockMapping := below.blockMapping_succ
      flowSequence := below.flowSequence_succ
      flowPair := below.flowPair_succ
      flowValue := below.flowValue_succ
      flowMapping := below.flowMapping_succ }

theorem respects_directives (fuel : Nat) (found : Directives) :
    Respects (directives fuel found) := by
  induction fuel generalizing found with
  | zero => exact Respects.pure _
  | succ fuel inductionHypothesis =>
      refine respects_peekKind.bind fun kind => ?_
      split
      · refine respects_take.bind fun token => ?_
        split
        · exact Respects.ite (Respects.throw _)
            (Respects.ite (Respects.throw _) (inductionHypothesis _))
        · exact Respects.ite (Respects.throw _) (inductionHypothesis _)
        · exact inductionHypothesis _
      · exact Respects.pure _

theorem respects_documentStart : Respects documentStart := by
  have marker (found : Directives) (version : Option Version) : Respects (do
      modify fun state => { state with version, handles := found.handles ++ defaultHandles }
      let token <- peek
      if token.kind == .documentStart then take
      else throw (.grammaticalAt (.noDocumentStart token.kind) token.start)) := by
    refine (Respects.modify fun alike => ?_).bind fun _ => ?_
    · exact { alike with rules := rfl, handles := rfl }
    · exact respects_peek.bind fun token => Respects.ite respects_take (Respects.throw _)
  refine Respects.get_bind (fun alike => by rw [alike.tokens]) fun state => ?_
  refine (respects_directives _ _).bind fun found => ?_
  split
  · exact marker found _
  · exact marker found _
  · exact marker found _
  · exact Respects.throw _

theorem respects_markedContent (fuel : Nat) : Respects (markedContent fuel) :=
  respects_peek.bind fun _ => Respects.ite (Respects.pure _) ((respectsWith fuel).node _)

theorem respects_documentEnd : Respects documentEnd := by
  refine respects_peekKind.bind fun kind => Respects.ite ?_ (Respects.pure _)
  refine respects_take.bind fun token => respects_peek.bind fun next => ?_
  exact Respects.ite (Respects.throw _) (Respects.pure _)

theorem respects_skipDocumentEnds (fuel : Nat) : Respects (skipDocumentEnds fuel) := by
  induction fuel with
  | zero => exact Respects.pure _
  | succ fuel inductionHypothesis =>
      refine respects_peekKind.bind fun kind => Respects.ite ?_ (Respects.pure _)
      exact respects_take.bind fun _ => inductionHypothesis

theorem respects_expectEnd (root : Node) (marked : Bool) : Respects (expectEnd root marked) := by
  refine respects_peek.bind fun next => respects_version.bind fun version => ?_
  refine Respects.ite (Respects.throw _) ?_
  refine Respects.get_bind (fun alike => by rw [alike.tokens]) fun state => ?_
  refine (respects_skipDocumentEnds _).bind fun _ => respects_peekKind.bind fun kind => ?_
  exact Respects.ite (Respects.pure _) (respects_documentStart.bind fun _ => Respects.throw _)

theorem respects_document : Respects document := by
  have onward (root : Node) : Respects (do
      expectEnd root (<- documentEnd)
      return some root) :=
    respects_documentEnd.bind fun _ => (respects_expectEnd root _).bind fun _ => Respects.pure _
  refine respects_take.bind fun _ => ?_
  refine Respects.get_bind (fun alike => by rw [alike.tokens]) fun state => ?_
  refine respects_peek.bind fun next => Respects.ite (Respects.pure _) (Respects.ite ?_ ?_)
  · exact respects_documentStart.bind fun _ => (respects_markedContent _).bind onward
  · exact ((respectsWith _).node _).bind onward

end Compose

variable {left right : Option Version}

theorem compose_alike (same : left.getD .v12 = right.getD .v12) (text : List Char) :
    (compose left text).1 = (compose right text).1 ∧
      (compose left text).2.getD .v12 = (compose right text).2.getD .v12 := by
  have alike : Compose.Alike (.ofText left text) (.ofText right text) :=
    { tokens := by simp only [Composition.ofText, same]
      failure := by simp only [Composition.ofText, same]
      rules := same
      handles := rfl
      anchors := rfl }
  obtain ⟨sameResult, alikeAfter⟩ := Compose.respects_document _ _ alike
  cases ranLeft : Compose.document.run (.ofText left text) with
  | mk resultLeft afterLeft =>
      cases ranRight : Compose.document.run (.ofText right text) with
      | mk resultRight afterRight =>
          rw [ranLeft, ranRight] at sameResult alikeAfter
          rw [compose_eq ranLeft, compose_eq ranRight]
          exact ⟨sameResult, alikeAfter.rules⟩

/-- Under versions that stand for the same rules, a text holds the same document and
leaves the same rules in force. -/
theorem load_alike (same : left.getD .v12 = right.getD .v12) (text : List Char) :
    (load left text).1 = (load right text).1 ∧
      (load left text).2.getD .v12 = (load right text).2.getD .v12 := by
  obtain ⟨sameRoot, sameRules⟩ := compose_alike same text
  cases unreadable : firstUnreadable text with
  | some place => simp only [load, unreadable, same, and_self]
  | none => simp only [load, unreadable, sameRoot, sameRules, and_self]

end Roster.Yaml
