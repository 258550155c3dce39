import Roster.CommandLine.Word

/-!
# Invocations

An argument list is read word by word into the options and the command it asks for.
Each value is checked as soon as its parameter is complete, so the first fault in
the order of the arguments is the one that is reported. Asking for help or for the
version ends the reading at once.
-/

namespace Roster.CommandLine

/-- What the options say. -/
structure Options where
  logLevel : Option String := none
  source : Option String := none
  file : Option String := none
  yaml : Option String := none
  nodes : Option (List String) := none
  format : Option String := none
  output : Option String := none
  deriving DecidableEq, Repr

namespace Options

/-- Whether a source is given. -/
def gives (options : Options) : Parameter -> Bool
  | .source => options.source.isSome
  | .file => options.file.isSome
  | .yaml => options.yaml.isSome
  | .nodes => options.nodes.isSome
  | _ => false

end Options

/-- Why the reading ends before there is an invocation. -/
inductive Stop where
  | help (scope : Scope)
  | version
  | usage (scope : Scope) (error : UsageError)
  deriving DecidableEq, Repr

/-- Checks values against the choices of a parameter. -/
def checkChoices (parameter : Parameter) (values : List String) : Except UsageError Unit :=
  match parameter.choices? with
  | none => .ok ()
  | some choices =>
    match values.find? fun value => !choices.contains value with
    | none => .ok ()
    | some value => .error (.invalidChoice parameter value choices)

/-- Checks that a source is the only one. -/
def checkSources (options : Options) (parameter : Parameter) : Except UsageError Unit :=
  if Parameter.sources.contains parameter then
    match Parameter.sources.find? fun other => other != parameter && options.gives other with
    | none => .ok ()
    | some given => .error (.secondSource parameter given)
  else .ok ()

/-- The options with a parameter set to values. -/
def Options.set (options : Options) (parameter : Parameter) (values : List String) : Options :=
  match parameter with
  | .logLevel => { options with logLevel := values.head? }
  | .source => { options with source := values.head? }
  | .file => { options with file := values.head? }
  | .yaml => { options with yaml := values.head? }
  | .nodes => { options with nodes := some values }
  | .format => { options with format := values.head? }
  | .output => { options with output := values.head? }
  | .help | .version | .command => options

/-- Completes a parameter with its values. -/
def complete (scope : Scope) (options : Options) (parameter : Parameter)
    (values : List String) : Except Stop Options :=
  match parameter with
  | .help => .error (.help scope)
  | .version => .error .version
  | _ => do
    (checkChoices parameter values).mapError (Stop.usage scope)
    (checkSources options parameter).mapError (Stop.usage scope)
    return options.set parameter values

/-- What the next word is expected to be. -/
inductive Expectation where
  | anything
  /-- The value of an option, which may stand behind options without values in the
  same word. -/
  | value (flags : List Parameter) (parameter : Parameter)
  /-- Another value of an option that takes several. -/
  | moreValues (parameter : Parameter) (values : List String)
  /-- The separator directly behind the source, which belongs to it. -/
  | sourceEnd
  /-- The source behind the separator. -/
  | sourceText
  /-- Nothing: all further words belong to the command. -/
  | nothing
  deriving DecidableEq, Repr

/-- What the words read so far say. -/
structure Progress where
  options : Options
  /-- The words that no parameter takes. -/
  extras : List String
  /-- The name of the command with its arguments. -/
  command : Option (String × List String)
  deriving DecidableEq, Repr

namespace Progress

/-- No words read. -/
def start (options : Options) : Progress := { options, extras := [], command := none }

/-- A word that no parameter takes. -/
def addExtra (progress : Progress) (text : String) : Progress :=
  { progress with extras := progress.extras ++ [text] }

/-- Completes parameters one after another, the last of them with values. -/
def completeAll (scope : Scope) (progress : Progress) (flags : List Parameter)
    (parameter : Parameter) (values : List String) : Except Stop Progress := do
  let options <- flags.foldlM (fun options flag => complete scope options flag []) progress.options
  return { progress with options := <- complete scope options parameter values }

end Progress

/-- Reads an option without a value attached to it. -/
def readOption (scope : Scope) (progress : Progress) (flags : List Parameter)
    (parameter : Parameter) : Except Stop (Expectation × Progress) :=
  match parameter.arity with
  | .none => return (.anything, <- progress.completeAll scope flags parameter [])
  | .one => .ok (.value flags parameter, progress)
  | .some => .ok (.moreValues parameter [], progress)

/-- Reads an option with a text attached to it: its value, or further short names
if it takes none and its own name is short. -/
def readAttached (scope : Scope) (progress : Progress) (flags : List Parameter)
    (parameter : Parameter) (isShort : Bool) :
    List Char -> Except Stop (Expectation × Progress)
  | [] =>
    match parameter.arity with
    | .none => .error (.usage scope (.needlessValue parameter ""))
    | _ => return (.anything, <- progress.completeAll scope flags parameter [""])
  | c :: rest =>
    let text := c :: rest
    match parameter.arity with
    | .none =>
      match isShort, scope.option? ['-', c] with
      | true, some next =>
        if rest.isEmpty then readOption scope progress (flags ++ [parameter]) next
        else readAttached scope progress (flags ++ [parameter]) next true rest
      | _, _ => .error (.usage scope (.needlessValue parameter (String.ofList text)))
    | _ => return (.anything, <- progress.completeAll scope flags parameter [String.ofList text])

/-- Reads a word with nothing expected from the words in front of it. `rest` is what
stands behind it. -/
def readWord (scope : Scope) (progress : Progress) (word : Word) (rest : List Word) :
    Except Stop (Expectation × Progress) :=
  let arguments := rest.map Word.text
  match word.role with
  | .option parameter _ none => readOption scope progress [] parameter
  | .option parameter isShort (some text) =>
    readAttached scope progress [] parameter isShort text
  | .unknownOption => .ok (.anything, progress.addExtra word.text)
  | .plain =>
    match scope with
    | .program => .ok (.nothing, { progress with command := some (word.text, arguments) })
    | .command _ =>
      if progress.options.source.isSome then .ok (.anything, progress.addExtra word.text)
      else return (.sourceEnd, <- progress.completeAll scope [] .source [word.text])
  | .separator =>
    match scope with
    | .program =>
      if rest.isEmpty then .ok (.anything, progress.addExtra word.text)
      else .ok (.nothing, { progress with command := some (word.text, arguments) })
    | .command _ =>
      if progress.options.source.isSome then .ok (.anything, progress.addExtra word.text)
      else .ok (.sourceText, progress)

/-- Reads a word. -/
def step (scope : Scope) (progress : Progress) (word : Word) (rest : List Word) :
    Expectation -> Except Stop (Expectation × Progress)
  | .anything => readWord scope progress word rest
  | .value flags parameter =>
    if word.role = .plain then
      return (.anything, <- progress.completeAll scope flags parameter [word.text])
    else .error (.usage scope (.missingValue parameter))
  | .moreValues parameter values =>
    if word.role = .plain then .ok (.moreValues parameter (values ++ [word.text]), progress)
    else if values.isEmpty then .error (.usage scope (.missingValues parameter))
    else do
      let progress <- progress.completeAll scope [] parameter values
      readWord scope progress word rest
  | .sourceEnd =>
    if word.role = .separator then .ok (.anything, progress)
    else readWord scope progress word rest
  | .sourceText => readWord scope progress word rest
  | .nothing => .ok (.nothing, progress)

/-- Ends the reading behind the last word. -/
def finish (scope : Scope) (progress : Progress) : Expectation -> Except Stop Progress
  | .value _ parameter => .error (.usage scope (.missingValue parameter))
  | .moreValues parameter values =>
    if values.isEmpty then .error (.usage scope (.missingValues parameter))
    else progress.completeAll scope [] parameter values
  | _ => .ok progress

/-- Reads words. -/
def readWords (scope : Scope) (expectation : Expectation) (progress : Progress) :
    List Word -> Except Stop Progress
  | [] => finish scope progress expectation
  | word :: rest => do
    let (expectation, progress) <- step scope progress word rest expectation
    readWords scope expectation progress rest

/-- Reads the arguments of a scope. -/
def readScope (scope : Scope) (options : Options) (arguments : List String) :
    Except Stop Progress := do
  let words <- (wordsOfArguments scope arguments).mapError (Stop.usage scope)
  readWords scope .anything (.start options) words

/-- What the program is asked to do. -/
structure Invocation where
  options : Options
  command : Option Command
  deriving DecidableEq, Repr

namespace Invocation

/-- An invocation, unless there are words that no parameter takes. -/
def checked (extras : List String) (invocation : Invocation) : Except Stop Invocation :=
  if extras.isEmpty then .ok invocation
  else .error (.usage .program (.unrecognized extras))

/-- The invocation of an argument list. -/
def ofArguments (arguments : List String) : Except Stop Invocation := do
  let outer <- readScope .program {} arguments
  match outer.command with
  | none => checked outer.extras { options := outer.options, command := none }
  | some (name, others) =>
    match Command.ofName? name with
    | none =>
      .error (.usage .program (.invalidChoice .command name (Command.all.map Command.name)))
    | some command =>
      let inner <- readScope (.command command) outer.options others
      checked (outer.extras ++ inner.extras) { options := inner.options, command := some command }

end Invocation

end Roster.CommandLine
