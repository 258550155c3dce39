import Roster.CommandLine.Parameter

/-!
# Usage and help

The texts that tell how the program is used: a short usage for each scope, which
also precedes the report of a usage error, and a help page for each scope.
-/

namespace Roster.CommandLine

/-- The choices of a parameter as they show in a usage. -/
def shownChoices (parameter : Parameter) : String :=
  "\x7b" ++ ",".intercalate (parameter.choices?.getD []) ++ "\x7d"

namespace Scope

/-- The usage of a scope. -/
def usage : Scope -> String
  | .program =>
    s!"usage: nodeconf [-h] [-v] [--log-level {shownChoices .logLevel}] Command ...\n"
  | .command .showTable =>
    "usage: nodeconf show [-h] [--file FILE] [--yaml YAML]\n" ++
    "                     [--nodes NODES [NODES ...]]\n" ++
    "                     [source]\n"
  | .command .exportTo =>
    "usage: nodeconf export [-h] [--file FILE] [--yaml YAML]\n" ++
    s!"                       [--nodes NODES [NODES ...]] [--format {shownChoices .format}]\n" ++
    "                       [-o OUTPUT]\n" ++
    "                       [source]\n"

/-- The part of a help page that the commands share. -/
def sourceHelp : String :=
  "positional arguments:\n" ++
  "  source                Whitespace separated node descriptors\n" ++
  "\n" ++
  "options:\n" ++
  "  -h, --help            show this help message and exit\n" ++
  "  --file FILE           Plain text file, one or more descriptors per line\n" ++
  "  --yaml YAML           YAML file with a 'nodes' sequence\n" ++
  "  --nodes NODES [NODES ...]\n" ++
  "                        Descriptors given as separate arguments\n"

/-- The part of a help page below the usage. -/
def details : Scope -> String
  | .program =>
    "NodeConf - Cluster node configuration reader\n" ++
    "\n" ++
    "positional arguments:\n" ++
    "  Command\n" ++
    "    show                🔍 Display the parsed node configuration\n" ++
    "    export              📦 Export the configuration as YAML or text\n" ++
    "\n" ++
    "options:\n" ++
    "  -h, --help            show this help message and exit\n" ++
    "  -v, --version         show program's version number and exit\n" ++
    s!"  --log-level {shownChoices .logLevel}\n" ++
    "                        Logging verbosity (default: WARNING)\n"
  | .command .showTable => sourceHelp
  | .command .exportTo =>
    sourceHelp ++
    s!"  --format {shownChoices .format}  Output format (default: yaml)\n" ++
    "  -o OUTPUT, --output OUTPUT\n" ++
    "                        Write to this file instead of the terminal\n"

/-- The help page of a scope. -/
def help (scope : Scope) : String :=
  scope.usage ++ "\n" ++ scope.details

/-- The report of a usage error. -/
def usageReport (scope : Scope) (error : UsageError) : String :=
  scope.usage ++ s!"{scope.caption}: error: {error.message}\n"

end Scope

end Roster.CommandLine
