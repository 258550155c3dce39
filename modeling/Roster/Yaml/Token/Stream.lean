import Roster.Yaml.Token.BlockScalar
import Roster.Yaml.Token.Plain
import Roster.Yaml.Token.Property
import Roster.Yaml.Token.Quoted

/-!
# The token stream

A text as a list of tokens. Two things make this more than one token after
another. Indentation opens and closes block collections. And a token may turn out
to be a key only when the colon behind it is met, so tokens are held back as long
as one of them may still become a key; the key token is then put in front of it.

`tokenize` gives the tokens that are known before the first error, together with
that error: a reader that takes tokens one by one meets the error exactly behind
the last token of the list.
-/

namespace Roster.Yaml

/-- A token that becomes a key if a colon follows: how many tokens stand in front
of it, its place, and whether nothing but a key can stand there. -/
structure Candidate where
  position : Nat
  required : Bool
  mark : Mark
  deriving DecidableEq, Repr

/-- A flow collection that is open, with the candidate of the level around it. -/
structure OpenFlow where
  kind : Collection
  outer : Option Candidate
  deriving DecidableEq, Repr

/-- The state between two tokens. -/
structure Scan where
  cursor : Cursor
  /-- The version whose rules are in force. -/
  version : Version
  /-- The version the directives in front of the next document ask for. -/
  announced : Option Version
  /-- The columns of the open block collections, innermost first. -/
  columns : List Nat
  /-- The open flow collections, innermost first. -/
  flow : List OpenFlow
  /-- The candidate of the present level. -/
  candidate : Option Candidate
  /-- Whether a key may begin here. -/
  keyAllowed : Bool
  /-- The number of tokens handed out. -/
  taken : Nat
  /-- The tokens held back. -/
  held : List Token
  /-- Whether the end of the stream is reached. -/
  finished : Bool
  deriving Repr

namespace Scan

/-- The state at the beginning of a text, with the token that opens the stream. -/
def start (version : Version) (text : List Char) : Scan where
  cursor := .start text
  version := version
  announced := none
  columns := []
  flow := []
  candidate := none
  keyAllowed := true
  taken := 0
  held := [{ kind := .streamStart, start := .zero, finish := .zero }]
  finished := false

/-- Whether the present place lies in a flow collection. -/
def inFlow (scan : Scan) : Bool := !scan.flow.isEmpty

/-- The least column of what belongs to the innermost block collection. -/
def least (scan : Scan) : Nat :=
  match scan.columns with
  | [] => 0
  | column :: _ => column + 1

/-- The number of tokens read so far. -/
def count (scan : Scan) : Nat := scan.taken + scan.held.length

/-- Adds a token. -/
def push (scan : Scan) (kind : TokenKind) (start finish : Mark) : Scan :=
  { scan with held := scan.held ++ [{ kind, start, finish }] }

/-- Adds a token of some characters' length, moving the cursor behind it. -/
def pushIndicator (scan : Scan) (kind : TokenKind) (length : Nat) : Scan :=
  let behind := scan.cursor.skip length
  { scan.push kind scan.cursor.mark behind.mark with cursor := behind }

/-- Adds a token without extent at a position among the tokens read so far. -/
def insertAt (scan : Scan) (position : Nat) (kind : TokenKind) (mark : Mark) : Scan :=
  let token : Token := { kind, start := mark, finish := mark }
  { scan with held := scan.held.insertIdx (position - scan.taken) token }

/-- All candidates, the present level's first. -/
def candidates (scan : Scan) : List Candidate :=
  scan.candidate.toList ++ scan.flow.filterMap OpenFlow.outer

/-- Whether a candidate is still on the present line and near enough. -/
def isFresh (scan : Scan) (candidate : Candidate) : Bool :=
  candidate.mark.line == scan.cursor.mark.line &&
    scan.cursor.mark.index - candidate.mark.index <= 1024

/-- The error of a required key without a colon. -/
def missingColon (scan : Scan) (candidate : Candidate) : Error :=
  .lexicalIn .simpleKey candidate.mark .missingColon scan.cursor.mark

/-- Gives up the candidates that can no longer be keys. -/
def dropStale (scan : Scan) : Except Error Scan :=
  match scan.candidates.find? fun candidate => !scan.isFresh candidate && candidate.required with
  | some candidate => .error (scan.missingColon candidate)
  | none =>
    .ok { scan with
      candidate := scan.candidate.filter scan.isFresh
      flow := scan.flow.map fun level => { level with outer := level.outer.filter scan.isFresh } }

/-- Gives up the candidate of the present level. -/
def dropCandidate (scan : Scan) : Except Error Scan :=
  match scan.candidate with
  | some candidate =>
    if candidate.required then .error (scan.missingColon candidate)
    else .ok { scan with candidate := none }
  | none => .ok scan

/-- Makes the next token a candidate if a key may begin here. -/
def saveCandidate (scan : Scan) : Except Error Scan :=
  if scan.keyAllowed then do
    let next <- scan.dropCandidate
    let required := !scan.inFlow && scan.columns.head? == some scan.cursor.column
    return { next with
      candidate := some { position := scan.count, required, mark := scan.cursor.mark } }
  else .ok scan

/-- Whether a block collection at a column would be inside the innermost one. -/
def isDeeper (scan : Scan) (column : Nat) : Bool :=
  scan.columns.head?.all (· < column)

/-- Closes the block collections deeper than a column, or all without one. Flow
collections pay no regard to indentation. -/
def unwind (scan : Scan) (column : Option Nat) : Scan :=
  if scan.inFlow then scan
  else
    let closes (open' : Nat) : Bool := column.all (· < open')
    let closed := scan.columns.takeWhile closes
    let mark := scan.cursor.mark
    let ends := closed.map fun _ => ({ kind := .blockEnd, start := mark, finish := mark } : Token)
    { scan with columns := scan.columns.dropWhile closes, held := scan.held ++ ends }

/-- Skips white space and comments. A line break in block context lets a key
begin again; a tab counts as white space in flow context only. -/
def skipToToken (scan : Scan) : Scan :=
  let cursor := scan.cursor
  let start := if cursor.mark.index == 0 && cursor.peek == '\ufeff' then cursor.advance else cursor
  let (keyAllowed, behind) := go start.mark scan.keyAllowed false start.rest
  { scan with cursor := behind, keyAllowed }
where
  /-- Works through the text; `comment` says whether the place is in a comment. -/
  go (mark : Mark) (keyAllowed comment : Bool) : List Char -> Bool × Cursor
    | [] => (keyAllowed, { mark, rest := [] })
    | c :: rest =>
      if comment && !endsContent c then go (mark.after c) keyAllowed true rest
      else if c == ' ' || (c == '\t' && scan.inFlow) then go (mark.after c) keyAllowed false rest
      else if c == '#' then go (mark.after c) keyAllowed true rest
      else if isBreak c then go (mark.after c) (keyAllowed || !scan.inFlow) false rest
      else (keyAllowed, { mark, rest := c :: rest })

/-- Whether a colon at the present place is a value indicator. -/
def atValue (scan : Scan) : Bool :=
  let setOff := endsIndicator (scan.cursor.peekAt 1)
  match scan.flow with
  | [] => setOff
  | level :: _ =>
    if scan.version == .v11 then true
    else if level.kind == .sequence then setOff
    else if scan.held.getLast?.any (·.kind == .value) then setOff
    else true

/-- Whether a question mark at the present place is a key indicator. -/
def atKey (scan : Scan) : Bool :=
  scan.inFlow || endsIndicator (scan.cursor.peekAt 1)

/-- Ends the stream. -/
def fetchEnd (scan : Scan) : Except Error Scan := do
  let next <- (scan.unwind none).dropCandidate
  let bare : Scan := { next with
    candidate := none, keyAllowed := false, finished := true
    flow := next.flow.map fun level => { level with outer := none } }
  return bare.pushIndicator .streamEnd 0

/-- What is common to directives and document markers: nothing stays open. -/
def closeDocument (scan : Scan) : Except Error Scan := do
  let next <- (scan.unwind none).dropCandidate
  return { next with keyAllowed := false }

/-- Reads a directive, remembering a version it asks for. -/
def fetchDirective (scan : Scan) : Except Error Scan := do
  let next <- scan.closeDocument
  let (directive, finish, behind) <- Token.directive scan.version scan.cursor
  let announced := match directive with
    | .version 1 1 => some Version.v11
    | .version _ _ => some Version.v12
    | _ => next.announced
  return { next.push (.directive directive) scan.cursor.mark finish with
    cursor := behind, announced }

/-- Reads a document start marker. The rules of the announced version, or of the
latest one, hold from here on. -/
def fetchDocumentStart (scan : Scan) : Except Error Scan := do
  let next <- scan.closeDocument
  let marked := next.pushIndicator .documentStart 3
  return { marked with version := next.announced.getD .v12, announced := none }

/-- Reads a document end marker. -/
def fetchDocumentEnd (scan : Scan) : Except Error Scan := do
  let next <- scan.closeDocument
  return next.pushIndicator .documentEnd 3

/-- Opens a flow collection, which may itself be a key. -/
def fetchFlowStart (scan : Scan) (kind : Collection) : Except Error Scan := do
  let next <- scan.saveCandidate
  let token := match kind with
    | .sequence => TokenKind.flowSequenceStart
    | .mapping => TokenKind.flowMappingStart
  let inside := { next with
    flow := { kind, outer := next.candidate } :: next.flow, candidate := none, keyAllowed := true }
  return inside.pushIndicator token 1

/-- Closes a flow collection; one that is not open is left to the grammar. -/
def fetchFlowEnd (scan : Scan) (token : TokenKind) : Except Error Scan := do
  let next <- scan.dropCandidate
  let outside := match next.flow with
    | [] => next
    | level :: others => { next with flow := others, candidate := level.outer }
  return ({ outside with keyAllowed := false } : Scan).pushIndicator token 1

/-- Reads a comma. -/
def fetchFlowEntry (scan : Scan) : Except Error Scan := do
  let next <- scan.dropCandidate
  return ({ next with keyAllowed := true } : Scan).pushIndicator .flowEntry 1

/-- Opens a block collection at a column if it is deeper than the innermost one. -/
def openBlock (scan : Scan) (column : Nat) (token : TokenKind) : Scan :=
  if scan.isDeeper column then
    { scan.push token scan.cursor.mark scan.cursor.mark with columns := column :: scan.columns }
  else scan

/-- Reads an indicator of block structure that may open a collection. -/
def fetchBlockIndicator (scan : Scan) (token collection : TokenKind) (refusal : Cause)
    (keyAfter : Bool) : Except Error Scan := do
  if !scan.inFlow && !scan.keyAllowed then
    .error (.lexicalAt refusal scan.cursor.mark)
  else
    let opened := if scan.inFlow then scan else scan.openBlock scan.cursor.column collection
    let next <- ({ opened with keyAllowed := keyAfter } : Scan).dropCandidate
    return next.pushIndicator token 1

/-- Reads the dash of a block sequence. -/
def fetchBlockEntry (scan : Scan) : Except Error Scan :=
  scan.fetchBlockIndicator .blockEntry .blockSequenceStart .sequenceEntryNotAllowed true

/-- Reads a question mark. -/
def fetchKey (scan : Scan) : Except Error Scan :=
  scan.fetchBlockIndicator .key .blockMappingStart .mappingKeyNotAllowed (!scan.inFlow)

/-- Turns a candidate into a key, in front of which a block mapping may open. -/
def confirm (scan : Scan) (candidate : Candidate) : Scan :=
  let keyed := { scan.insertAt candidate.position .key candidate.mark with
    candidate := none, keyAllowed := false }
  let column := candidate.mark.column
  if !scan.inFlow && scan.isDeeper column then
    { keyed.insertAt candidate.position .blockMappingStart candidate.mark with
      columns := column :: scan.columns }
  else keyed

/-- Reads the colon of a value. -/
def fetchValue (scan : Scan) : Except Error Scan :=
  match scan.candidate with
  | some candidate => .ok ((scan.confirm candidate).pushIndicator .value 1)
  | none =>
    scan.fetchBlockIndicator .value .blockMappingStart .mappingValueNotAllowed (!scan.inFlow)

/-- Reads a token that may be a key, given how to read it from a cursor. -/
def fetchContent (scan : Scan)
    (read : Cursor -> Except Error (TokenKind × Cursor)) : Except Error Scan := do
  let next <- scan.saveCandidate
  let (kind, behind) <- read scan.cursor
  return { next.push kind scan.cursor.mark behind.mark with cursor := behind, keyAllowed := false }

/-- Reads an alias. -/
def fetchAlias (scan : Scan) : Except Error Scan :=
  scan.fetchContent fun cursor => do
    let (name, behind) <- Token.anchorName .alias cursor
    return (.alias name, behind)

/-- Reads an anchor. -/
def fetchAnchor (scan : Scan) : Except Error Scan :=
  scan.fetchContent fun cursor => do
    let (name, behind) <- Token.anchorName .anchor cursor
    return (.anchor name, behind)

/-- Reads a tag. -/
def fetchTag (scan : Scan) : Except Error Scan :=
  scan.fetchContent (Token.tag scan.version)

/-- Reads a quoted scalar. -/
def fetchQuoted (scan : Scan) (style : QuoteStyle) : Except Error Scan :=
  scan.fetchContent fun cursor => do
    let (text, behind) <- Token.quotedScalar style cursor
    return (.scalar text, behind)

/-- Reads a plain scalar. A line break behind it lets a key begin again. -/
def fetchPlain (scan : Scan) : Except Error Scan := do
  let next <- scan.saveCandidate
  let setting : PlainSetting :=
    { version := scan.version, inFlow := scan.inFlow, least := scan.least }
  let plain := Token.plainScalar setting scan.cursor
  let pushed := next.push (.scalar (String.ofList plain.text)) scan.cursor.mark plain.finish
  return { pushed with cursor := plain.behind, keyAllowed := plain.endsWithBreak }

/-- Reads a block scalar, which is never a key. -/
def fetchBlockScalar (scan : Scan) (style : BlockStyle) : Except Error Scan := do
  let next <- scan.dropCandidate
  let (text, finish, behind) <- Token.blockScalar style scan.least scan.cursor
  return { next.push (.scalar text) scan.cursor.mark finish with
    cursor := behind, keyAllowed := true }

/-- Reads the token at the present place, which is no white space. -/
def fetchHere (scan : Scan) : Except Error Scan :=
  let c := scan.cursor.peek
  let atLineStart := scan.cursor.column == 0
  if scan.cursor.rest.isEmpty then scan.fetchEnd
  else if c == '%' && atLineStart then scan.fetchDirective
  else if atLineStart && scan.cursor.atMarker '-' then scan.fetchDocumentStart
  else if atLineStart && scan.cursor.atMarker '.' then scan.fetchDocumentEnd
  else if c == '[' then scan.fetchFlowStart .sequence
  else if c == '\x7b' then scan.fetchFlowStart .mapping
  else if c == ']' then scan.fetchFlowEnd .flowSequenceEnd
  else if c == '\x7d' then scan.fetchFlowEnd .flowMappingEnd
  else if c == ',' then scan.fetchFlowEntry
  else if c == '-' && endsIndicator (scan.cursor.peekAt 1) then scan.fetchBlockEntry
  else if c == '?' && scan.atKey then scan.fetchKey
  else if c == ':' && scan.atValue then scan.fetchValue
  else if c == '*' then scan.fetchAlias
  else if c == '&' then scan.fetchAnchor
  else if c == '!' then scan.fetchTag
  else if c == '|' && !scan.inFlow then scan.fetchBlockScalar .literal
  else if c == '>' && !scan.inFlow then scan.fetchBlockScalar .folded
  else if c == '\'' then scan.fetchQuoted .single
  else if c == '"' then scan.fetchQuoted .double
  else if beginsPlain scan.version scan.inFlow c (scan.cursor.peekAt 1) then scan.fetchPlain
  else
    .error (.lexical
      { context := some .nextToken, since := none
        cause := .startsNoToken c, place := scan.cursor.mark })

/-- Skips to the next token, closes what its column closes, and reads it. -/
def fetch (scan : Scan) : Except Error Scan := do
  let fresh <- scan.skipToToken.dropStale
  (fresh.unwind (some fresh.cursor.column)).fetchHere

/-- Hands out the held tokens that cannot become keys any more: those in front of
the first candidate. -/
def release (scan : Scan) : List Token × Scan :=
  let ready := match scan.candidates.map Candidate.position |>.min? with
    | some position => position - scan.taken
    | none => scan.held.length
  (scan.held.take ready,
    { scan with taken := scan.taken + ready, held := scan.held.drop ready })

end Scan

/-- The tokens of a text up to its end or to an error. -/
structure TokenStream where
  tokens : List Token
  failure : Option Error
  deriving Repr

/-- Reads tokens until the end or an error. -/
def Scan.run : Nat -> Scan -> TokenStream
  | 0, _ => { tokens := [], failure := none }
  | fuel + 1, scan =>
    match scan.dropStale with
    | .error failure => { tokens := [], failure := some failure }
    | .ok fresh =>
      let (ready, rest) := fresh.release
      if rest.finished then { tokens := ready, failure := none }
      else
        match rest.fetch with
        | .error failure => { tokens := ready, failure := some failure }
        | .ok next =>
          let others := Scan.run fuel next
          { others with tokens := ready ++ others.tokens }

/-- The token stream of a text under the rules of a version. Every step but the
last reads at least one character. -/
def tokenize (version : Version) (text : List Char) : TokenStream :=
  Scan.run (text.length + 2) (Scan.start version text)

end Roster.Yaml
