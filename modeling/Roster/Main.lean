import Roster.CommandLine.Run

/-!
# The program on the file system

The outer layer of the command line. It looks up what stands on the way to the
paths that an argument list names, runs the program on that store, prints what it
says, and makes the changes of the store in the file system. It knows the pictures of a
few names only, and it does not show halves.
-/

namespace Roster.CommandLine

open Roster.Storage (Path Store Item Location)

/-- The paths that options name, and those of the temporary files beside them. -/
def Options.paths (options : Options) : List Path :=
  let read := (options.file.toList ++ options.yaml.toList).map Path.ofString
  let written := options.outputPath?.toList.map Path.ofString
  read ++ written ++ written.filterMap temporaryPath?

/-- The paths that an argument list names. -/
def pathsOfArguments (arguments : List String) : List Path :=
  match Invocation.ofArguments arguments with
  | .ok invocation => invocation.options.paths
  | .error _ => []

/-- The file name of a location. -/
def fileName (location : Location) : String := "/".intercalate location

/-- Looks up what stands at a location whose parent is a directory. -/
def lookUp (location : Location) : IO (Option Item) := do
  try
    return some (.file (<- IO.FS.readBinFile (fileName location)).toList)
  catch
    | .inappropriateType .. => return some .directory
    | _ => return none

/-- Adds what stands on the way along components, as far as there is something. -/
def explore (store : Store) (here : Location) : List String -> IO Store
  | [] => return store
  | component :: others => do
    if component == ".." then explore store here.dropLast others
    else
      let location := here ++ [component]
      match <- lookUp location with
      | none => return store
      | some item => explore (store.set location item) location others

/-- Makes the changes between two stores. A file is replaced as a whole. -/
def commit (before after : Store) : IO Unit := do
  for (location, item) in after.items do
    if before.get? location != some item then
      match item with
      | .file bytes =>
        let temporary := fileName location ++ temporarySuffix
        IO.FS.writeBinFile temporary (.mk bytes.toArray)
        IO.FS.rename temporary (fileName location)
      | .directory => pure ()
  for (location, _) in before.items do
    if (after.get? location).isNone then
      discard (IO.FS.removeFile (fileName location)).toBaseIO

/-- Runs the program on the file system and gives its exit status. -/
def execute (arguments : List String) : IO UInt32 := do
  let mut store := Store.empty
  for path in pathsOfArguments arguments do
    store <- explore store [] path.components
  let outcome := run Terminal.Emoji.known store arguments
  commit store outcome.store
  IO.print outcome.output
  IO.eprint outcome.diagnostics
  match outcome.ending with
  | .exit status => return status.toUInt32
  | .brokenOff error =>
    IO.eprintln error.message
    return 1
  | .leftOpen =>
    IO.eprintln CommandError.unprintable.message
    return 1

end Roster.CommandLine

/-- The entry point of the program. -/
def main (arguments : List String) : IO UInt32 :=
  Roster.CommandLine.execute arguments
