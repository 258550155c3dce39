import Roster.Yaml.Error
import Roster.Yaml.Token.Stream

/-!
# Nodes

The tree a document consists of, before its keys are compared, and the grammar that makes
it from tokens. An alias refers to an anchored node by the place where that node begins,
which no other anchored node shares; so the tree stays finite even if an alias lies inside
the collection it refers to.

Tokens are taken one at a time, so the error of a token stream counts only if all its
tokens are used up; and an alias is resolved as soon as it is read, so an unknown one hides
later errors. Apart from the root node, reading a stream yields the version that its
directives leave in force. It is kept also if reading fails.
-/

namespace Roster.Yaml

/-- A node and the place where it begins. -/
inductive Node where
  | scalar (start : Mark) (text : Text.Wide)
  | sequence (start : Mark) (items : List Node)
  | mapping (start : Mark) (entries : List (Node × Node))
  /-- A node that aliases may refer to by its place. -/
  | anchored (node : Node)
  /-- A reference to the anchored node that begins at a place. -/
  | alias (target : Mark)
  deriving Repr, Inhabited

/-- The place where a node begins. An alias stands for its target, also here. -/
def Node.start : Node -> Mark
  | .scalar start _ => start
  | .sequence start _ => start
  | .mapping start _ => start
  | .anchored node => node.start
  | .alias target => target

/-- What is left of a token stream, and what the document so far has established. -/
structure Composition where
  tokens : List Token
  failure : Option Error
  /-- The version in force, if a directive has fixed one. -/
  version : Option Version
  /-- The tag handles that are defined. -/
  handles : List String
  /-- The anchors and the places of their nodes, latest first. -/
  anchors : List (String × Mark)
  deriving Repr

/-- Computations that read tokens. The state survives an error. -/
abbrev Compose := ExceptT Error (StateM Composition)

/-- The tag handles every document knows. -/
def defaultHandles : List String := ["!", "!!"]

/-- Where a node stands, which decides about the collections it may be: a sequence
without indentation of its own only as a part of a mapping, and no block
collection inside a flow collection. -/
inductive Position where
  | block
  | mappingPart
  | flow
  deriving DecidableEq, Repr

/-- The properties in front of a node, and where they begin. -/
structure Properties where
  start : Option Mark
  anchor : Option String
  deriving DecidableEq, Repr

namespace Compose

/-- The next token, which stays. -/
def peek : Compose Token := do
  let state <- get
  match state.tokens, state.failure with
  | token :: _, _ => return token
  | [], some failure => throw failure
  | [], none => return { kind := .streamEnd, start := .zero, finish := .zero }

/-- Takes the next token. -/
def take : Compose Token := do
  let token <- peek
  modify fun state => { state with tokens := state.tokens.tail }
  return token

/-- What the next token says. -/
def peekKind : Compose TokenKind :=
  Token.kind <$> peek

/-- Whether the next token is one of some kinds. -/
def atOneOf (kinds : List TokenKind) : Compose Bool := do
  return kinds.contains (<- peekKind)

/-- The version whose rules are in force. -/
def version : Compose Version := do
  return (<- get).version.getD .v12

/-- A node without content at a place. -/
def empty (place : Mark) : Node := .scalar place ""

/-- Takes a tag, if there is one, and checks its handle. -/
def tag? : Compose (Option (Token × Option String)) := do
  match (<- peekKind) with
  | .tag handle _ => return some (<- take, handle)
  | _ => return none

/-- Takes an anchor, if there is one. -/
def anchor? : Compose (Option (Token × String)) := do
  match (<- peekKind) with
  | .anchor name => return some (<- take, name)
  | _ => return none

/-- Fails if a tag depends on a handle that is not defined. -/
def checkHandle (handle : Option String) (start place : Mark) : Compose Unit := do
  match handle with
  | none => return
  | some name =>
    if (<- get).handles.contains name then return
    else throw (.grammaticalIn .node start (.undefinedHandle name) place)

/-- Takes the anchor and the tag of a node, in either order. Behind a tag, an
anchor takes over as the beginning of the node. -/
def properties : Compose Properties := do
  match (<- anchor?) with
  | some (anchor, name) =>
    if let some (tag, handle) <- tag? then
      checkHandle handle anchor.start tag.start
    return { start := some anchor.start, anchor := some name }
  | none =>
    match (<- tag?) with
    | none => return { start := none, anchor := none }
    | some (tag, handle) =>
      match (<- anchor?) with
      | some (anchor, name) =>
        checkHandle handle anchor.start anchor.start
        return { start := some anchor.start, anchor := some name }
      | none =>
        checkHandle handle tag.start tag.start
        return { start := some tag.start, anchor := none }

/-- Takes an alias, which must be known. -/
def aliased (name : String) : Compose Node := do
  let token <- take
  match (<- get).anchors.lookup name with
  | some target => return .alias target
  | none =>
    throw (.composition
      { context := none, since := none, cause := .undefinedAlias name, place := token.start })

/-- Makes a node that begins at a place known under its anchor, if it has one,
and reads the rest of it. -/
def named (anchor : Option String) (start : Mark) (content : Compose Node) : Compose Node := do
  match anchor with
  | none => content
  | some name =>
    modify fun state => { state with anchors := (name, start) :: state.anchors }
    return .anchored (<- content)

mutual

/-- Reads a node. -/
def node : Nat -> Position -> Compose Node
  | 0, _ => return empty .zero
  | fuel + 1, position => do
    if let .alias name := (<- peekKind) then aliased name
    else
      let properties <- properties
      let token <- peek
      let start := properties.start.getD token.start
      let named := named properties.anchor start
      let inBlock := position != .flow
      if position == .mappingPart && token.kind == .blockEntry then
        named (return .sequence start (<- plainSequence fuel))
      else if let .scalar text := token.kind then
        named do
          let _ <- take
          return .scalar start text
      else if token.kind == .flowSequenceStart then
        named (return .sequence start (<- flowSequence fuel (<- take).start true))
      else if token.kind == .flowMappingStart then
        named (return .mapping start (<- flowMapping fuel (<- take).start true))
      else if inBlock && token.kind == .blockSequenceStart then
        named (return .sequence start (<- blockSequence fuel (<- take).start))
      else if inBlock && token.kind == .blockMappingStart then
        named (return .mapping start (<- blockMapping fuel (<- take).start))
      else if properties.start.isSome then
        named (return empty start)
      else
        let context := if inBlock then Context.blockNode else Context.flowNode
        throw (.grammaticalIn context start (.noNodeContent token.kind) token.start)

/-- Reads a node, or an empty one behind a token if one of some tokens follows. -/
def nodeUnless : Nat -> List TokenKind -> Position -> Mark -> Compose Node
  | 0, _, _, place => return empty place
  | fuel + 1, stops, position, place => do
    if (<- atOneOf stops) then return empty place
    else node fuel position

/-- Reads the entries of a block sequence and its end. -/
def blockSequence : Nat -> Mark -> Compose (List Node)
  | 0, _ => return []
  | fuel + 1, since => do
    let token <- peek
    if token.kind == .blockEntry then
      let entry <- take
      let item <- nodeUnless fuel [.blockEntry, .blockEnd] .block entry.finish
      return item :: (<- blockSequence fuel since)
    else if token.kind == .blockEnd then
      let _ <- take
      return []
    else throw (.grammaticalIn .blockCollection since (.noBlockEnd token.kind) token.start)

/-- Reads the entries of a sequence that shares the indentation of the mapping
around it; it ends with the first token that is no entry. -/
def plainSequence : Nat -> Compose (List Node)
  | 0 => return []
  | fuel + 1 => do
    if (<- peekKind) == .blockEntry then
      let entry <- take
      let item <- nodeUnless fuel [.blockEntry, .key, .value, .blockEnd] .block entry.finish
      return item :: (<- plainSequence fuel)
    else return []

/-- Reads the value of an entry of a block mapping; without a colon it is empty. -/
def blockValue : Nat -> Compose Node
  | 0 => return empty .zero
  | fuel + 1 => do
    if (<- peekKind) == .value then
      let colon <- take
      nodeUnless fuel [.key, .value, .blockEnd] .mappingPart colon.finish
    else return empty (<- peek).start

/-- Reads the entries of a block mapping and its end. Since version 1.2 a colon
without a key has an empty one. -/
def blockMapping : Nat -> Mark -> Compose (List (Node × Node))
  | 0, _ => return []
  | fuel + 1, since => do
    let token <- peek
    if token.kind == .key then
      let key <- take
      let key <- nodeUnless fuel [.key, .value, .blockEnd] .mappingPart key.finish
      let value <- blockValue fuel
      return (key, value) :: (<- blockMapping fuel since)
    else if token.kind == .value && (<- version) == .v12 then
      let value <- blockValue fuel
      return (empty token.start, value) :: (<- blockMapping fuel since)
    else if token.kind == .blockEnd then
      let _ <- take
      return []
    else throw (.grammaticalIn .blockMapping since (.noBlockEnd token.kind) token.start)

/-- Reads the entries of a flow sequence and its end. An entry with a key is a
mapping of its own. -/
def flowSequence : Nat -> Mark -> Bool -> Compose (List Node)
  | 0, _, _ => return []
  | fuel + 1, since, isFirst => do
    let token <- peek
    if token.kind == .flowSequenceEnd then
      let _ <- take
      return []
    else if !isFirst && token.kind != .flowEntry then
      throw (.grammaticalIn .flowSequence since (.noFlowSequenceEnd token.kind) token.start)
    else
      if !isFirst then
        let _ <- take
      let entry <- peek
      if entry.kind == .flowSequenceEnd then
        let _ <- take
        return []
      else
        let item <- if entry.kind == .key then flowPair fuel else node fuel .flow
        return item :: (<- flowSequence fuel since false)

/-- Reads an entry of a flow sequence that is a mapping of one entry. -/
def flowPair : Nat -> Compose Node
  | 0 => return empty .zero
  | fuel + 1 => do
    let mark <- take
    let key <- nodeUnless fuel [.value, .flowEntry, .flowSequenceEnd] .flow mark.finish
    let value <- flowValue fuel [.flowEntry, .flowSequenceEnd]
    return .mapping mark.start [(key, value)]

/-- Reads the value of an entry of a flow collection; without a colon it is empty. -/
def flowValue : Nat -> List TokenKind -> Compose Node
  | 0, _ => return empty .zero
  | fuel + 1, stops => do
    if (<- peekKind) == .value then
      let colon <- take
      nodeUnless fuel stops .flow colon.finish
    else return empty (<- peek).start

/-- Reads the entries of a flow mapping and its end. An entry without any colon is
a key with an empty value. -/
def flowMapping : Nat -> Mark -> Bool -> Compose (List (Node × Node))
  | 0, _, _ => return []
  | fuel + 1, since, isFirst => do
    let token <- peek
    if token.kind == .flowMappingEnd then
      let _ <- take
      return []
    else if !isFirst && token.kind != .flowEntry then
      throw (.grammaticalIn .flowMapping since (.noFlowMappingEnd token.kind) token.start)
    else
      if !isFirst then
        let _ <- take
      let entry <- peek
      if entry.kind == .key then
        let mark <- take
        let key <- nodeUnless fuel [.value, .flowEntry, .flowMappingEnd] .flow mark.finish
        let value <- flowValue fuel [.flowEntry, .flowMappingEnd]
        return (key, value) :: (<- flowMapping fuel since false)
      else if entry.kind == .value && (<- version) == .v12 then
        let value <- flowValue fuel [.flowEntry, .flowMappingEnd]
        return (empty entry.finish, value) :: (<- flowMapping fuel since false)
      else if entry.kind == .flowMappingEnd then
        let _ <- take
        return []
      else
        let key <- node fuel .flow
        return (key, empty (<- peek).start) :: (<- flowMapping fuel since false)

end

/-- The directives in front of a document, as far as they are read. -/
structure Directives where
  version : Option (Nat × Nat)
  handles : List String
  deriving DecidableEq, Repr

/-- Takes the directives in front of a document. -/
def directives : Nat -> Directives -> Compose Directives
  | 0, found => return found
  | fuel + 1, found => do
    match (<- peekKind) with
    | .directive directive =>
      let token <- take
      match directive with
      | .version major minor =>
        if found.version.isSome then throw (.grammaticalAt .duplicateVersion token.start)
        else if major != 1 then throw (.grammaticalAt .incompatibleVersion token.start)
        else directives fuel { found with version := some (major, minor) }
      | .tag handle _ =>
        if found.handles.contains handle then
          throw (.grammaticalAt (.duplicateHandle handle) token.start)
        else directives fuel { found with handles := handle :: found.handles }
      | .other _ => directives fuel found
    | _ => return found

/-- Takes the directives and the start marker of a document, and puts the rules
of its version in force; without a version directive those are the latest. -/
def documentStart : Compose Token := do
  let found <- directives (<- get).tokens.length { version := none, handles := [] }
  let version <- match found.version with
    | none => pure none
    | some (_, 1) => pure (some Version.v11)
    | some (_, 2) => pure (some Version.v12)
    | some (major, minor) => throw (.unknownMinorVersion major minor)
  modify fun state => { state with version, handles := found.handles ++ defaultHandles }
  let token <- peek
  if token.kind == .documentStart then take
  else throw (.grammaticalAt (.noDocumentStart token.kind) token.start)

/-- Whether a token begins a document with a marker, or ends the stream. -/
def isStreamLevel (kind : TokenKind) : Bool :=
  match kind with
  | .directive _ | .documentStart | .streamEnd => true
  | _ => false

/-- The content of a document behind its start marker, which may be missing. -/
def markedContent (fuel : Nat) : Compose Node := do
  let token <- peek
  if isStreamLevel token.kind || token.kind == .documentEnd then return empty token.start
  else node fuel .block

/-- Takes the end marker of a document, if there is one; nothing but a comment
may follow it in its line. -/
def documentEnd : Compose Bool := do
  if (<- peekKind) == .documentEnd then
    let token <- take
    let next <- peek
    if next.kind != .streamEnd && token.finish.line == next.start.line then
      throw (.grammaticalAt (.contentAfterDocumentEnd next.kind) next.start)
    return true
  else return false

/-- Takes further end markers. -/
def skipDocumentEnds : Nat -> Compose Unit
  | 0 => return
  | fuel + 1 => do
    if (<- peekKind) == .documentEnd then
      let _ <- take
      skipDocumentEnds fuel
    else return

/-- Fails unless the stream ends behind the first document. Since version 1.2 a
document behind an end marker needs no start marker. -/
def expectEnd (root : Node) (marked : Bool) : Compose Unit := do
  let fail (place : Mark) : Compose Unit :=
    throw (.composition
      { context := some .singleDocument, since := some root.start
        cause := .anotherDocument, place })
  let next <- peek
  if marked && (<- version) == .v12 && !isStreamLevel next.kind then fail next.start
  else
    skipDocumentEnds (<- get).tokens.length
    if (<- peekKind) == .streamEnd then return
    else fail (<- documentStart).start

/-- Reads a stream that holds at most one document, and gives its root node. -/
def document : Compose (Option Node) := do
  let _ <- take
  let fuel := 4 * (<- get).tokens.length + 4
  let next <- peek
  if next.kind == .streamEnd then return none
  else
    let root <-
      if isStreamLevel next.kind then do
        let _ <- documentStart
        markedContent fuel
      else node fuel .block
    expectEnd root (<- documentEnd)
    return some root

end Compose

/-- The root node of a text, if the text holds a document, and the version that
is in force afterwards. `version` is the one in force before. -/
def compose (version : Option Version) (text : List Char) :
    Except Error (Option Node) × Option Version :=
  let stream := tokenize (version.getD .v12) text
  let start : Composition :=
    { tokens := stream.tokens, failure := stream.failure, version
      handles := defaultHandles, anchors := [] }
  let (result, final) := Compose.document.run start
  (result, final.version)

end Roster.Yaml
