import Roster.Yaml.Node

/-!
# Documents

What a text says: scalars, which are all texts, sequences and mappings. A null occurs only
where an alias lies inside the collection it refers to. The keys of a mapping are pairwise
distinct and keep their order.

Nodes are turned into values in the order of the text. An anchored node is turned
into a value once; an alias that is met before that is done denotes null. Keys are
checked as they come: what cannot be a key, and what is a key already, is refused
after the value of its entry is known, but a mapping as a key at once.

Loading is the whole way from a text to a value. A text with a character that no text may
contain is refused before anything else is read. A document may be nested to any depth
here; a machine whose stack is too small for one breaks off instead of loading it.
-/

namespace Roster.Yaml

/-- A key of a mapping. A sequence can be a key if it holds no collection. -/
inductive Key where
  | null
  | text (text : Text.Wide)
  | tuple (items : List (Option Text.Wide))
  deriving DecidableEq, Repr

/-- The value of a document. -/
inductive Value where
  | null
  | text (text : Text.Wide)
  | sequence (items : List Value)
  | mapping (entries : List (Key × Value))
  deriving Repr, Inhabited

/-- How a text, or a missing one, shows inside a collection. -/
def displayItem : Option Text.Wide -> String
  | none => "None"
  | some text => text.quoted

/-- How a key shows inside a mapping. -/
def Key.display : Key -> String
  | .null => displayItem none
  | .text content => displayItem (some content)
  | .tuple [item] => s!"({displayItem item},)"
  | .tuple items =>
    let displayed := ", ".intercalate (items.map displayItem)
    s!"({displayed})"

/-- How a key shows by itself: a text is not quoted. -/
def Key.plain : Key -> Text.Wide
  | .text content => content
  | key => key.display

namespace Value

mutual

/-- How a value shows inside a collection. -/
def display : Value -> String
  | .null => displayItem none
  | .text content => displayItem (some content)
  | .sequence items => "[" ++ ", ".intercalate (displayItems items) ++ "]"
  | .mapping entries => "\x7b" ++ ", ".intercalate (displayEntries entries) ++ "\x7d"

/-- How the items of a sequence show. -/
def displayItems : List Value -> List String
  | [] => []
  | item :: others => item.display :: displayItems others

/-- How the entries of a mapping show. -/
def displayEntries : List (Key × Value) -> List String
  | [] => []
  | (key, value) :: others => (key.display ++ ": " ++ value.display) :: displayEntries others

end

/-- How a value shows by itself: a text is not quoted. -/
def plain : Value -> Text.Wide
  | .text content => content
  | value => value.display

end Value

/-- The values of the anchored nodes that are complete, by their places. -/
abbrev Anchored := List (Mark × Value)

/-- Computations that may look up anchored values. -/
abbrev Build := StateT Anchored (Except Error)

/-- What a value gives as a key: a text and null are keys themselves, a sequence
gives a candidate whose items have still to be looked at. -/
inductive KeyCandidate where
  | key (key : Key)
  | items (items : List Value)
  deriving Repr

/-- The candidate a value gives. There is none for a mapping. -/
def Value.keyCandidate? : Value -> Option KeyCandidate
  | .null => some (.key .null)
  | .text content => some (.key (.text content))
  | .sequence items => some (.items items)
  | .mapping _ => none

/-- An item of a key that is a sequence. -/
def Value.keyItem : Value -> Except Error (Option Text.Wide)
  | .null => .ok none
  | .text content => .ok (some content)
  | .sequence _ => .error (.nestedKey .sequence)
  | .mapping _ => .error (.nestedKey .mapping)

/-- The key a candidate becomes, unless it holds a collection. -/
def KeyCandidate.toKey : KeyCandidate -> Except Error Key
  | .key ready => .ok ready
  | .items members => do return .tuple (<- members.mapM Value.keyItem)

mutual

/-- The value of a node. -/
def Node.build : Node -> Build Value
  | .scalar _ text => return .text text
  | .sequence _ items => do return .sequence (<- buildItems items)
  | .mapping start entries => do return .mapping (<- buildEntries start [] entries)
  | .anchored node => do
    let value <- node.build
    modify ((node.start, value) :: ·)
    return value
  | .alias target => do return ((<- get).lookup target).getD .null

/-- The values of the items of a sequence. -/
def buildItems : List Node -> Build (List Value)
  | [] => return []
  | item :: others => do
    let value <- item.build
    return value :: (<- buildItems others)

/-- The entries of a mapping that begins at a place, behind those that are built. -/
def buildEntries (start : Mark) (built : List (Key × Value)) :
    List (Node × Node) -> Build (List (Key × Value))
  | [] => return built
  | (keyNode, valueNode) :: others => do
    let fault (cause : Cause) : Fault :=
      { context := some .mapping, since := some start, cause, place := keyNode.start }
    match (<- keyNode.build).keyCandidate? with
    | none => throw (.unhashableKey (fault .unhashableKey))
    | some candidate =>
      let value <- valueNode.build
      let key <- candidate.toKey
      match built.lookup key with
      | some old =>
        throw (.duplicateKey (fault (.duplicateKey key.plain value.plain old.plain)))
      | none => buildEntries start (built ++ [(key, value)]) others

end

/-- The value of a root node. -/
def Node.toValue (root : Node) : Except Error Value :=
  Prod.fst <$> root.build.run []

/-- The first character that no text may contain, with its place. -/
def firstUnreadable (text : List Char) : Option (Char × Nat) :=
  let readable := text.takeWhile isReadable
  match text.drop readable.length with
  | [] => none
  | c :: _ => some (c, readable.length)

/-- The document of a text, if it holds one, and the version in force afterwards.
`version` is the one in force before: a document without a start marker is read
by its rules. -/
def load (version : Option Version) (text : List Char) :
    Except Error (Option Value) × Option Version :=
  match firstUnreadable text with
  | some (c, index) => (.error (.unreadable c index), version)
  | none =>
    let (root, after) := compose version text
    let value := do
      match (<- root) with
      | none => return none
      | some node => return some (<- node.toValue)
    (value, after)

end Roster.Yaml
