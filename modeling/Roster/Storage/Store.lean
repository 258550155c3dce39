import Roster.Storage.Path
import Roster.Text.Quoted

/-!
# The file store

The files and directories below the working directory. Every operation either
gives the store after it or the failure that the system reports for it, in which
case the store is as before. `get?` is the view through which the operations are
described: an operation changes it at one or two places.

Three things are left out. There are no links, so a place has one path but for detours, and
an operation on a path is about what stands there and not elsewhere. There are no
permissions, as for a user who has all of them. And there is always room: no operation
fails because a disk is full.
-/

namespace Roster.Storage

/-- What stands at a place. -/
inductive Item where
  | directory
  | file (bytes : List UInt8)
  deriving DecidableEq, Repr

/-- A place: the components on the way from the working directory, none of which
leads back. -/
abbrev Location := List String

/-- The files and directories, each at its place. -/
structure Store where
  items : List (Location × Item)
  deriving Repr

/-- Why the system refuses an operation. -/
inductive Refusal where
  | notFound
  | notDirectory
  | isDirectory
  | nameTooLong
  | busy
  deriving DecidableEq, Repr

namespace Refusal

/-- The number of a refusal. -/
def number : Refusal -> Nat
  | .notFound => 2
  | .busy => 16
  | .notDirectory => 20
  | .isDirectory => 21
  | .nameTooLong => 36

/-- The wording of a refusal. -/
def text : Refusal -> String
  | .notFound => "No such file or directory"
  | .busy => "Device or resource busy"
  | .notDirectory => "Not a directory"
  | .isDirectory => "Is a directory"
  | .nameTooLong => "File name too long"

end Refusal

/-- A refusal with the path it is about, and the new path when renaming. -/
structure Failure where
  refusal : Refusal
  path : Path
  target : Option Path
  deriving DecidableEq, Repr

/-- The report of a failure. -/
def Failure.message (failure : Failure) : String :=
  let place := Text.quoted failure.path.toString
  let arrow := match failure.target with
    | none => ""
    | some target => " -> " ++ Text.quoted target.toString
  s!"[Errno {failure.refusal.number}] {failure.refusal.text}: {place}{arrow}"

/-- The number of bytes a single name may have. -/
def nameLimit : Nat := 255

/-- The number of bytes a whole path may have. -/
def pathLimit : Nat := 4095

namespace Store

/-- The store without files. -/
def empty : Store := { items := [] }

/-- What stands at a place. The working directory is always there. -/
def get? (store : Store) (location : Location) : Option Item :=
  if location.isEmpty then some .directory else store.items.lookup location

/-- Puts something at a place, whatever was there. -/
def set (store : Store) (location : Location) (item : Item) : Store :=
  { items := (location, item) :: store.items.filter fun entry => entry.1 != location }

/-- Takes away what stands at a place. -/
def erase (store : Store) (location : Location) : Store :=
  { items := store.items.filter fun entry => entry.1 != location }

/-- Walks along components from a place. All but the last have to exist, and what
is left behind has to be a directory. -/
def walk (store : Store) (here : Location) : List String -> Except Refusal Location
  | [] => .ok here
  | component :: others =>
    match store.get? here with
    | none => .error .notFound
    | some (.file _) => .error .notDirectory
    | some .directory =>
      if component == ".." then walk store here.dropLast others
      else if component.utf8ByteSize > nameLimit then .error .nameTooLong
      else walk store (here ++ [component]) others

/-- The place a path leads to, whether or not something is there. -/
def locate (store : Store) (path : Path) : Except Refusal Location :=
  if path.toString.utf8ByteSize > pathLimit then .error .nameTooLong
  else store.walk [] path.components

/-- Names the path in a refusal. -/
def about (path : Path) (result : Except Refusal α) : Except Failure α :=
  result.mapError fun refusal => { refusal, path, target := none }

/-- The bytes of the file at a path. -/
def read (store : Store) (path : Path) : Except Failure (List UInt8) :=
  about path do
    match store.get? (<- store.locate path) with
    | none => .error .notFound
    | some .directory => .error .isDirectory
    | some (.file bytes) => return bytes

/-- Writes a file, replacing one that is there already. -/
def write (store : Store) (path : Path) (bytes : List UInt8) : Except Failure Store :=
  about path do
    let location <- store.locate path
    match store.get? location with
    | some .directory => .error .isDirectory
    | _ => return store.set location (.file bytes)

/-- Takes away the file at a path. -/
def remove (store : Store) (path : Path) : Except Failure Store :=
  about path do
    let location <- store.locate path
    match store.get? location with
    | none => .error .notFound
    | some .directory => .error .isDirectory
    | some (.file _) => return store.erase location

/-- Gives a file another path, replacing a file that is there already. The last
component of the new path has to be a name. -/
def rename (store : Store) (path target : Path) : Except Failure Store :=
  let moved : Except Refusal Store := do
    let source <- store.locate path
    let location <- store.locate target
    if target.name? == some ".." then .error .busy
    else
      match store.get? source, store.get? location with
      | none, _ => .error .notFound
      | _, some .directory => .error .isDirectory
      | some item, _ => return (store.erase source).set location item
  moved.mapError fun refusal => { refusal, path, target := some target }

/-- Makes the directories on the way along components from a place, and gives the
place they lead to. -/
def makeDirectories (store : Store) (here : Location) : List String -> Store × Location
  | [] => (store, here)
  | component :: others =>
    if component == ".." then makeDirectories store here.dropLast others
    else
      let next := here ++ [component]
      if (store.get? next).isSome then makeDirectories store next others
      else makeDirectories (store.set next .directory) next others

/-- Puts something at a path together with the directories around it. -/
def install (store : Store) (path : Path) (item : Item) : Store :=
  match path.name? with
  | none => store
  | some name =>
    let (made, here) := store.makeDirectories [] path.parent.components
    made.set (here ++ [name]) item

/-- Takes away what stands at a path, with all that is inside. -/
def discardAll (store : Store) (path : Path) : Store :=
  { items := store.items.filter fun entry => !path.components.isPrefixOf entry.1 }

/-- Whether anything stands inside a directory. -/
def hasChildren (store : Store) (location : Location) : Bool :=
  store.items.any fun entry => location != entry.1 && location.isPrefixOf entry.1

end Store

end Roster.Storage
