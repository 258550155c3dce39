import Roster.Text.Wide
import Roster.Yaml.Token

/-!
# Errors of YAML

Why a text could not be read as a document. Most errors are faults: a cause at a
place, seen in a context that began at an earlier place. The wording of all of
them is fixed here and nowhere else.
-/

namespace Roster.Yaml

open Roster.Text (quoted quotedChar)

/-- What was being read when a fault was met. -/
inductive Context where
  | simpleKey
  | nextToken
  | directive
  | alias
  | anchor
  | tag
  | verbatimTag
  | handle (within : Context)
  | uri (within : Context)
  | uriEscape (within : Context)
  | blockScalar
  | doubleQuoted
  | quoted
  | blockCollection
  | blockMapping
  | flowSequence
  | flowMapping
  | blockNode
  | flowNode
  | node
  | singleDocument
  | mapping
  deriving DecidableEq, Repr

/-- The one word for a construct that holds handles and URIs. -/
def Context.word : Context -> String
  | .directive => "directive"
  | _ => "tag"

/-- The wording of a context. -/
def Context.text : Context -> String
  | .simpleKey => "while scanning a simple key"
  | .nextToken => "while scanning for the next token"
  | .directive => "while scanning a directive"
  | .alias => "while scanning an alias"
  | .anchor => "while scanning an anchor"
  | .tag => "while scanning a tag"
  | .verbatimTag => "while parsing a tag"
  | .handle within => s!"while scanning an {within.word}"
  | .uri within => s!"while parsing an {within.word}"
  | .uriEscape within => s!"while scanning an {within.word}"
  | .blockScalar => "while scanning a block scalar"
  | .doubleQuoted => "while scanning a double-quoted scalar"
  | .quoted => "while scanning a quoted scalar"
  | .blockCollection => "while parsing a block collection"
  | .blockMapping => "while parsing a block mapping"
  | .flowSequence => "while parsing a flow sequence"
  | .flowMapping => "while parsing a flow mapping"
  | .blockNode => "while parsing a block node"
  | .flowNode => "while parsing a flow node"
  | .node => "while parsing a node"
  | .singleDocument => "expected a single document in the stream"
  | .mapping => "while constructing a mapping"

/-- What would have been allowed where another character was found. -/
inductive Expected where
  | wordCharacter
  | digit
  | digitOrPoint
  | space
  | exclamationMark
  | uri
  | uriEscape
  | commentOrBreak
  | blockIndicators
  | escapeDigits (count : Nat)
  deriving DecidableEq, Repr

/-- The wording of an expectation. -/
def Expected.text : Expected -> String
  | .wordCharacter => "alphabetic or numeric character"
  | .digit => "a digit"
  | .digitOrPoint => "a digit or '.'"
  | .space => "' '"
  | .exclamationMark => "'!'"
  | .uri => "URI"
  | .uriEscape => "URI escape sequence of 2 hexdecimal numbers"
  | .commentOrBreak => "a comment or a line break"
  | .blockIndicators => "chomping or indentation indicators"
  | .escapeDigits count => s!"escape sequence of {count} hexdecimal numbers"

/-- What is wrong at the place of a fault. -/
inductive Cause where
  | missingColon
  | startsNoToken (found : Char)
  | sequenceEntryNotAllowed
  | mappingKeyNotAllowed
  | mappingValueNotAllowed
  | expected (what : Expected) (found : Char)
  | handleNotClosed (found : Char)
  | verbatimTagNotClosed (found : Char)
  | escapedBytes (fault : Text.Utf8.Fault)
  | indentationIndicatorZero
  | deeperBlankLine
  | unknownEscape (found : Char)
  | endOfStream
  | documentSeparator
  | noBlockEnd (found : TokenKind)
  | noFlowSequenceEnd (found : TokenKind)
  | noFlowMappingEnd (found : TokenKind)
  | noNodeContent (found : TokenKind)
  | undefinedHandle (handle : String)
  | duplicateHandle (handle : String)
  | duplicateVersion
  | incompatibleVersion
  | noDocumentStart (found : TokenKind)
  | contentAfterDocumentEnd (found : TokenKind)
  | undefinedAlias (name : String)
  | anotherDocument
  | unhashableKey
  | duplicateKey (key new old : Text.Wide)
  deriving DecidableEq, Repr

/-- The wording of a cause. -/
def Cause.text : Cause -> String
  | .missingColon => "could not find expected ':'"
  | .startsNoToken found => s!"found character {quotedChar found} that cannot start any token"
  | .sequenceEntryNotAllowed => "sequence entries are not allowed here"
  | .mappingKeyNotAllowed => "mapping keys are not allowed here"
  | .mappingValueNotAllowed => "mapping values are not allowed here"
  | .expected what found => s!"expected {what.text}, but found {quotedChar found}"
  | .handleNotClosed found => s!"expected '!' but found {quotedChar found}"
  | .verbatimTagNotClosed found => s!"expected '>' but found {quotedChar found}"
  | .escapedBytes fault => fault.message
  | .indentationIndicatorZero => "expected indentation indicator in the range 1-9, but found 0"
  | .deeperBlankLine => "more indented follow up line than first in a block scalar"
  | .unknownEscape found => s!"found unknown escape character {quotedChar found}"
  | .endOfStream => "found unexpected end of stream"
  | .documentSeparator => "found unexpected document separator"
  | .noBlockEnd found => s!"expected <block end>, but found {quoted found.label}"
  | .noFlowSequenceEnd found => s!"expected ',' or ']', but got {quoted found.label}"
  | .noFlowMappingEnd found => s!"expected ',' or '\x7d', but got {quoted found.label}"
  | .noNodeContent found => s!"expected the node content, but found {quoted found.label}"
  | .undefinedHandle handle => s!"found undefined tag handle {quoted handle}"
  | .duplicateHandle handle => s!"duplicate tag handle {quoted handle}"
  | .duplicateVersion => "found duplicate YAML directive"
  | .incompatibleVersion => "found incompatible YAML document (version 1.* is required)"
  | .noDocumentStart found =>
    s!"expected '<document start>', but found ({quoted found.label},)"
  | .contentAfterDocumentEnd found =>
    s!"found non-comment content after document end marker, ({quoted found.label},)"
  | .undefinedAlias name => s!"found undefined alias {quoted name}"
  | .anotherDocument => "but found another document"
  | .unhashableKey => "found unhashable key"
  | .duplicateKey key new old =>
    s!"found duplicate key \"{key.shown}\" with value \"{new.shown}\" " ++
      s!"(original value: \"{old.shown}\")"

/-- A cause at a place, with the context it was met in and where that began. -/
structure Fault where
  context : Option Context
  since : Option Mark
  cause : Cause
  place : Mark
  deriving DecidableEq, Repr

namespace Fault

/-- The advice that follows a duplicate key. -/
def duplicateKeyNote : String :=
  "\nTo suppress this check see:\n    https://yaml.dev/doc/ruamel.yaml/api/#Duplicate_keys\n"

/-- The paragraphs of a report in a text. The place of the context is left out if
it is the place of the cause. -/
def paragraphs (fault : Fault) (text : List Char) : List String :=
  let context := fault.context.toList.map Context.text
  let since := fault.since.toList.filter fun mark => !mark.sameSpot fault.place
  let note := match fault.cause with
    | .duplicateKey _ _ _ => [duplicateKeyNote]
    | _ => []
  context ++ since.map (Mark.report · text) ++ [fault.cause.text, fault.place.report text] ++ note

/-- The report of a fault in a text. -/
def message (fault : Fault) (text : List Char) : String :=
  "\n".intercalate (fault.paragraphs text)

end Fault

/-- The two kinds of collection. -/
inductive Collection where
  | sequence
  | mapping
  deriving DecidableEq, Repr

/-- Why a text is not a document. -/
inductive Error where
  /-- A character that no text may contain. -/
  | unreadable (c : Char) (index : Nat)
  /-- No token can be read. -/
  | lexical (fault : Fault)
  /-- The tokens do not form a document. -/
  | grammatical (fault : Fault)
  /-- An alias without anchor, or a second document. -/
  | composition (fault : Fault)
  /-- A mapping used as a key. -/
  | unhashableKey (fault : Fault)
  /-- A key that occurs twice in a mapping. -/
  | duplicateKey (fault : Fault)
  /-- A key that is a sequence with a collection inside. -/
  | nestedKey (inside : Collection)
  /-- A minor version that is not known. -/
  | unknownMinorVersion (major minor : Nat)
  /-- A version number with too many digits. -/
  | tooManyDigits (count : Nat)
  /-- An escape beyond the last code point. -/
  | escapeOutOfRange
  /-- An escape too large to be a number of the machine. -/
  | escapeTooLarge
  deriving DecidableEq, Repr

namespace Error

/-- A lexical error without a place where its context began. -/
def lexicalAt (cause : Cause) (place : Mark) : Error :=
  .lexical { context := none, since := none, cause, place }

/-- A lexical error in a context. -/
def lexicalIn (context : Context) (since : Mark) (cause : Cause) (place : Mark) : Error :=
  .lexical { context := some context, since := some since, cause, place }

/-- A grammatical error without a context. -/
def grammaticalAt (cause : Cause) (place : Mark) : Error :=
  .grammatical { context := none, since := none, cause, place }

/-- A grammatical error in a context. -/
def grammaticalIn (context : Context) (since : Mark) (cause : Cause) (place : Mark) : Error :=
  .grammatical { context := some context, since := some since, cause, place }

/-- The report of an error in a text. -/
def message (text : List Char) : Error -> String
  | .unreadable c index =>
    let code := String.ofList (Text.hexDigits 4 c.toNat)
    s!"unacceptable character #x{code}: special characters are not allowed\n" ++
      s!"  in \"<unicode string>\", position {index}"
  | .lexical fault => fault.message text
  | .grammatical fault => fault.message text
  | .composition fault => fault.message text
  | .unhashableKey fault => fault.message text
  | .duplicateKey fault => fault.message text
  | .nestedKey .sequence => "unhashable type: 'list'"
  | .nestedKey .mapping => "unhashable type: 'dict'"
  | .unknownMinorVersion major minor =>
    s!"version minor part can only be 2 or 1, got ({major}, {minor})"
  | .tooManyDigits count =>
    s!"Exceeds the limit (4300 digits) for integer string conversion: value has {count} digits; " ++
      "use sys.set_int_max_str_digits() to increase the limit"
  | .escapeOutOfRange => "chr() arg not in range(0x110000)"
  | .escapeTooLarge => "Python int too large to convert to C int"

end Error

end Roster.Yaml
