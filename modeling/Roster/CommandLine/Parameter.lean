import Roster.Export
import Roster.Log
import Roster.Text.Quoted

/-!
# Parameters

What can be said on the command line: the two commands, and the parameters that the
program and each command take. A parameter is an option with one or more names, or
it is known by its position.
-/

namespace Roster.CommandLine

/-- The name of the program. -/
def programName : String := "nodeconf"

/-- The version of the program. -/
def programVersion : String := "1.0.0"

/-- What the program is told to do with a configuration. -/
inductive Command where
  /-- Show it as a table. -/
  | showTable
  /-- Export it to the terminal or to a file. -/
  | exportTo
  deriving DecidableEq, Repr

namespace Command

/-- The name of a command. -/
def name : Command -> String
  | .showTable => "show"
  | .exportTo => "export"

/-- All commands. -/
def all : List Command := [.showTable, .exportTo]

/-- The command with a name. -/
def ofName? (name : String) : Option Command :=
  all.find? fun command => command.name == name

end Command

/-- A parameter of the program or of a command. -/
inductive Parameter where
  | help
  | version
  | logLevel
  | command
  | source
  | file
  | yaml
  | nodes
  | format
  | output
  deriving DecidableEq, Repr

/-- How many values a parameter takes. -/
inductive Arity where
  | none
  | one
  /-- At least one. -/
  | some
  deriving DecidableEq, Repr

namespace Parameter

/-- The names of an option. A parameter that is known by its position has none. -/
def names : Parameter -> List String
  | .help => ["-h", "--help"]
  | .version => ["-v", "--version"]
  | .logLevel => ["--log-level"]
  | .command => []
  | .source => []
  | .file => ["--file"]
  | .yaml => ["--yaml"]
  | .nodes => ["--nodes"]
  | .format => ["--format"]
  | .output => ["-o", "--output"]

/-- How an error refers to a parameter. -/
def label : Parameter -> String
  | .command => "Command"
  | .source => "source"
  | parameter => "/".intercalate parameter.names

/-- How many values a parameter takes. -/
def arity : Parameter -> Arity
  | .help | .version => .none
  | .nodes => .some
  | _ => .one

/-- The values a parameter can have, if there are only some. -/
def choices? : Parameter -> Option (List String)
  | .logLevel => some (LogLevel.all.map LogLevel.name)
  | .format => some (Format.all.map Format.name)
  | _ => none

/-- The parameters that name a source. At most one of them may be given. -/
def sources : List Parameter := [.source, .file, .yaml, .nodes]

end Parameter

/-- Where parameters are looked for: in front of the command, or behind it. -/
inductive Scope where
  | program
  | command (command : Command)
  deriving DecidableEq, Repr

namespace Scope

/-- The options of a scope in the order in which they are declared. -/
def options : Scope -> List Parameter
  | .program => [.help, .version, .logLevel]
  | .command .showTable => [.help, .file, .yaml, .nodes]
  | .command .exportTo => [.help, .file, .yaml, .nodes, .format, .output]

/-- The names of the options of a scope. -/
def optionNames (scope : Scope) : List (String × Parameter) :=
  scope.options.flatMap fun parameter => parameter.names.map fun name => (name, parameter)

/-- The option of a scope with a name. -/
def option? (scope : Scope) (name : List Char) : Option Parameter :=
  scope.optionNames.lookup (String.ofList name)

/-- How messages call the program with a scope. -/
def caption : Scope -> String
  | .program => programName
  | .command given => s!"{programName} {given.name}"

end Scope

/-- Why an argument list is refused. -/
inductive UsageError where
  /-- An abbreviation of more than one option. -/
  | ambiguous (argument : String) (names : List String)
  | missingValue (parameter : Parameter)
  | missingValues (parameter : Parameter)
  /-- A value for an option that takes none. -/
  | needlessValue (parameter : Parameter) (value : String)
  | invalidChoice (parameter : Parameter) (value : String) (choices : List String)
  /-- A second source beside one that was given already. -/
  | secondSource (parameter given : Parameter)
  | unrecognized (arguments : List String)
  deriving DecidableEq, Repr

/-- The wording of a refused argument list. -/
def UsageError.message : UsageError -> String
  | .ambiguous argument names =>
    s!"ambiguous option: {argument} could match " ++ ", ".intercalate names
  | .missingValue parameter => s!"argument {parameter.label}: expected one argument"
  | .missingValues parameter => s!"argument {parameter.label}: expected at least one argument"
  | .needlessValue parameter value =>
    s!"argument {parameter.label}: ignored explicit argument {Text.quoted value}"
  | .invalidChoice parameter value choices =>
    let known := ", ".intercalate (choices.map Text.quoted)
    s!"argument {parameter.label}: invalid choice: {Text.quoted value} (choose from {known})"
  | .secondSource parameter given =>
    s!"argument {parameter.label}: not allowed with argument {given.label}"
  | .unrecognized arguments => "unrecognized arguments: " ++ " ".intercalate arguments

end Roster.CommandLine
