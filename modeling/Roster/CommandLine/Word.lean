import Roster.CommandLine.Parameter
import Roster.Text.CharacterClass

/-!
# Words of the command line

Before values are matched with parameters, each argument gets a role. Everything
behind `--` is plain. In front of it, an argument with a leading hyphen is an
option, unless it is only the hyphen, a negative number, or an unknown option with
a space in it. A long option may be abbreviated as long as no other begins alike,
and a value may be attached to an option.

The rules are those of release 3.11.10. In early releases of 3.11 a value attached to an
option is lost if it is `--`; here it is a value like any other.
-/

namespace Roster.CommandLine

/-- The role of an argument. -/
inductive Role where
  /-- The argument `--`, behind which everything is plain. -/
  | separator
  | plain
  | unknownOption
  /-- An option with the value attached to it. A short name may be followed by
  other short names instead of a value. -/
  | option (parameter : Parameter) (isShort : Bool) (attached : Option (List Char))
  deriving DecidableEq, Repr

/-- An argument with its role. -/
structure Word where
  text : String
  role : Role
  deriving DecidableEq, Repr

/-- The argument that ends the options. -/
def separatorText : String := "--"

/-- Whether a name has one hyphen. -/
def isShortName (name : List Char) : Bool :=
  name.take 2 != ['-', '-']

/-- Cuts a text at the first equals sign. -/
def cutAtEquals : List Char -> List Char × Option (List Char)
  | [] => ([], none)
  | c :: rest =>
    if c = '=' then ([], some rest)
    else
      let (front, value) := cutAtEquals rest
      (c :: front, value)

/-- Whether a text is a hyphen with decimal digits behind it, among which there may
be a point that is not the last. A newline at the end does not count. -/
def isNegativeNumber (text : List Char) : Bool :=
  match text with
  | '-' :: rest =>
    let digits := if rest.getLast? = some '\n' then rest.dropLast else rest
    match Text.pieces '.' digits with
    | [whole] => !whole.isEmpty && whole.all Text.isDecimalDigit
    | [whole, fraction] =>
      whole.all Text.isDecimalDigit && !fraction.isEmpty && fraction.all Text.isDecimalDigit
    | _ => false
  | _ => false

/-- The options an argument may abbreviate, each with the value attached to it. A
short name is not abbreviated: the value follows it directly. -/
def abbreviated (scope : Scope) (text : List Char) :
    List (String × Parameter × Option (List Char)) :=
  if isShortName text then
    scope.optionNames.filterMap fun (name, parameter) =>
      if name.toList = text.take 2 then some (name, parameter, some (text.drop 2)) else none
  else
    let (front, value) := cutAtEquals text
    scope.optionNames.filterMap fun (name, parameter) =>
      if front.isPrefixOf name.toList then some (name, parameter, value) else none

/-- The option that is spelled out in an argument, up to its end or to an equals
sign. -/
def spelledOut? (scope : Scope) (text : List Char) : Option Role :=
  let (front, value) := cutAtEquals text
  match scope.option? text, scope.option? front with
  | some parameter, _ => some (.option parameter (isShortName text) none)
  | none, some parameter => some (.option parameter (isShortName front) value)
  | none, none => none

/-- The role of an argument in front of the separator. -/
def roleOf (scope : Scope) (argument : String) : Except UsageError Role :=
  let text := argument.toList
  if text.head? != some '-' || text = ['-'] then .ok .plain
  else
    match spelledOut? scope text with
    | some role => .ok role
    | none =>
      match abbreviated scope text with
      | [] =>
        if isNegativeNumber text || text.contains ' ' then .ok .plain else .ok .unknownOption
      | [(name, parameter, attached)] =>
        .ok (.option parameter (isShortName name.toList) attached)
      | candidates => .error (.ambiguous argument (candidates.map Prod.fst))

/-- The words of an argument list. -/
def wordsOfArguments (scope : Scope) : List String -> Except UsageError (List Word)
  | [] => .ok []
  | argument :: others =>
    if argument = separatorText then
      .ok ({ text := argument, role := .separator } ::
        others.map fun text => { text, role := .plain })
    else do
      let role <- roleOf scope argument
      let words <- wordsOfArguments scope others
      return { text := argument, role } :: words

end Roster.CommandLine
