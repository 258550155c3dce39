import Roster.Text.Wide
import Roster.Yaml.Mark

/-!
# Tokens

The tokens of YAML with the places where they begin and end. Indentation shows
as tokens of its own, so a list of tokens describes the structure of a text
without its layout.
-/

namespace Roster.Yaml

/-- The two versions of YAML whose rules are known. -/
inductive Version where
  | v11
  | v12
  deriving DecidableEq, Repr, Inhabited

/-- A directive in front of a document. -/
inductive Directive where
  /-- The version a document asks for. -/
  | version (major minor : Nat)
  /-- A tag handle and what it stands for. -/
  | tag (handle expansion : String)
  /-- Any other directive, which has no effect. -/
  | other (name : String)
  deriving DecidableEq, Repr

/-- What a token says. -/
inductive TokenKind where
  | streamStart
  | streamEnd
  | directive (directive : Directive)
  | documentStart
  | documentEnd
  | blockSequenceStart
  | blockMappingStart
  | blockEnd
  | flowSequenceStart
  | flowMappingStart
  | flowSequenceEnd
  | flowMappingEnd
  | key
  | value
  | blockEntry
  | flowEntry
  | alias (name : String)
  | anchor (name : String)
  /-- A tag, with the handle it depends on if it depends on one. -/
  | tag (handle : Option String) (suffix : String)
  | scalar (text : Text.Wide)
  deriving DecidableEq, Repr

/-- How a token is called in a message. -/
def TokenKind.label : TokenKind -> String
  | .streamStart => "<stream start>"
  | .streamEnd => "<stream end>"
  | .directive _ => "<directive>"
  | .documentStart => "<document start>"
  | .documentEnd => "<document end>"
  | .blockSequenceStart => "<block sequence start>"
  | .blockMappingStart => "<block mapping start>"
  | .blockEnd => "<block end>"
  | .flowSequenceStart => "["
  | .flowMappingStart => "\x7b"
  | .flowSequenceEnd => "]"
  | .flowMappingEnd => "\x7d"
  | .key => "?"
  | .value => ":"
  | .blockEntry => "-"
  | .flowEntry => ","
  | .alias _ => "<alias>"
  | .anchor _ => "<anchor>"
  | .tag _ _ => "<tag>"
  | .scalar _ => "<scalar>"

/-- A token and its extent. -/
structure Token where
  kind : TokenKind
  start : Mark
  finish : Mark
  deriving DecidableEq, Repr

end Roster.Yaml
