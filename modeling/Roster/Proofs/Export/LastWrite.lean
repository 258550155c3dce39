import Mathlib.Logic.Function.Basic
import Roster.Proofs.Export.YamlDocument

/-!
# The last write wins

Documents are written one after another to names in one directory. Some writes come
through and some are refused, for instance because a directory is in the way. At the
end each name that was ever written reads as what was written to it last, and all else
is as it was in the beginning.

A run keeps a record of what each name got last. One write keeps the store faithful to
that record: a write that comes through changes what its own name shows, and a refused
one changes nothing, since no temporary file is there for it to clear away.
-/

namespace Roster

open Roster.Storage (Path Store Location)

namespace Storage

/-- A path with a proper name at its end. -/
structure Path.EndsIn (path : Path) (name : String) : Prop where
  isLast : path.name? = some name
  forward : name ≠ ".."

/-- A path is its directory and its name. -/
theorem Path.EndsIn.components_eq {path : Path} {name : String} (ends : path.EndsIn name) :
    path.components = path.parent.components ++ [name] :=
  (List.dropLast_append_getLast? name ends.isLast).symm

/-- Different names in a directory lead to different places. -/
theorem Store.eq_of_locate {store : Store} {path other : Path} {name otherName : String}
    {location : Location} (ends : path.EndsIn name) (otherEnds : other.EndsIn otherName)
    (beside : path.parent = other.parent) (found : store.locate path = .ok location)
    (otherFound : store.locate other = .ok location) : path = other := by
  have walked := walk_of_locate found
  have otherWalked := walk_of_locate otherFound
  rw [ends.components_eq] at walked
  rw [otherEnds.components_eq, ← beside] at otherWalked
  obtain ⟨there, reached, same⟩ := walk_name ends.forward walked
  obtain ⟨otherThere, otherReached, otherSame⟩ := walk_name otherEnds.forward otherWalked
  rw [reached] at otherReached
  obtain rfl := Except.ok.inj otherReached
  rw [same] at otherSame
  have names : name = otherName := by simpa using otherSame
  have components : path.components = other.components := by
    rw [ends.components_eq, otherEnds.components_eq, beside, names]
  cases path
  cases other
  exact congrArg Path.mk components

/-- The path of a temporary file ends in a proper name, beside its target. -/
theorem Path.endsIn_of_temporary {target temporary : Path}
    (beside : temporaryPath? target = some temporary) :
    temporary.parent = target.parent ∧ ∃ name, temporary.EndsIn name := by
  obtain ⟨name, -, rfl⟩ := Option.map_eq_some_iff.1 beside
  refine ⟨?_, name ++ temporarySuffix, ?_, append_temporarySuffix_ne_dots name⟩
  · simp [Path.parent, Path.withName]
  · simp [Path.name?, Path.withName]

/-- Stores that agree on what is a directory. -/
def Store.SameDirectories (store other : Store) : Prop :=
  ∀ location, store.get? location = some .directory ↔ other.get? location = some .directory

/-- A path leads to the same place in stores that agree on what is a directory. -/
theorem Store.SameDirectories.locate_iff {store other : Store}
    (same : store.SameDirectories other) {path : Path} {location : Location} :
    store.locate path = .ok location ↔ other.locate path = .ok location :=
  ⟨locate_of_keepsDirectories fun place => (same place).1,
    locate_of_keepsDirectories fun place => (same place).2⟩

/-- So does a temporary path. -/
theorem Store.SameDirectories.isScratch_iff {store other : Store}
    (same : store.SameDirectories other) {target : Path} {location : Location} :
    store.IsScratch target location ↔ other.IsScratch target location :=
  exists_congr fun _ => and_congr_right fun _ => same.locate_iff

end Storage

namespace Configuration

/-- The target of a write that came through ends in a proper name and was no directory. -/
theorem endsIn_of_write {configuration : Configuration} {store : Store} {target : Path}
    {format : Datum} {record : LogRecord}
    (written : (configuration.write store target format).1 = .ok record) :
    (∃ name, target.EndsIn name) ∧
      ∀ location, store.locate target = .ok location → store.get? location ≠ some .directory := by
  cases exported : configuration.exportAs format with
  | error cause => simp [write, exported] at written
  | ok content =>
      cases beside : temporaryPath? target with
      | none => simp [write, exported, beside] at written
      | some temporary =>
          by_cases nul : temporary.hasNul = true
          · simp [write, exported, beside, nul] at written
          · rcases done : store.replace temporary target (Text.Utf8.encode content) with
              ⟨⟨failure⟩ | ⟨⟨⟩⟩, after⟩
            · simp [write, exported, beside, nul, done] at written
            · obtain ⟨filled, wrote, renamed⟩ := Store.replace_eq_ok done
              obtain ⟨scratch, -, freeScratch, rfl⟩ := Store.write_eq_ok wrote
              obtain ⟨source, place, item, -, leads, isName, -, free, -⟩ :=
                Store.rename_eq_ok renamed
              obtain ⟨name, isLast, -⟩ := Option.map_eq_some_iff.1 beside
              refine ⟨⟨name, isLast, ?_⟩, fun location found isDirectory => free ?_⟩
              · rintro rfl
                exact isName isLast
              · have kept := Store.keepsDirectories_set
                  (.file (Text.Utf8.encode content)) freeScratch
                rw [Store.locate_of_keepsDirectories kept found] at leads
                obtain rfl := Except.ok.inj leads
                exact kept location isDirectory

end Configuration

/-- A configuration to be written to a target as a YAML document. -/
structure WriteRequest where
  configuration : Configuration
  target : Path

/-- A store in the course of a run, with the configuration that each target got last. -/
structure Progress where
  store : Store
  written : Path → Option Configuration

namespace Progress

/-- Before the first request, nothing has been written. -/
def start (store : Store) : Progress := { store, written := fun _ => none }

/-- Carries out a request. A refused write leaves the record as it is. -/
def after (progress : Progress) (request : WriteRequest) : Progress :=
  match request.configuration.write progress.store request.target (.text "yaml") with
  | (.ok _, store) =>
    { store
      written := Function.update progress.written request.target (some request.configuration) }
  | (.error _, store) => { progress with store }

/-- Carries out requests one after another. -/
def run (store : Store) (requests : List WriteRequest) : Progress :=
  requests.foldl after (start store)

end Progress

/-- Requests to write built configurations to names in one directory, such that the path
of a temporary file is no target and nothing stands there in the beginning. -/
structure Undisturbed (start : Store) (directory : Path) (requests : List WriteRequest) :
    Prop where
  built : ∀ request ∈ requests, request.configuration.Built
  inDirectory : ∀ request ∈ requests, request.target.parent = directory
  apart : ∀ request ∈ requests, ∀ other ∈ requests,
    temporaryPath? request.target ≠ some other.target
  free : ∀ request ∈ requests, ∀ location,
    start.IsScratch request.target location → start.get? location = none

/-- A name in a directory that holds the document of a configuration. -/
structure HoldsDocument (store : Store) (directory target : Path)
    (configuration : Configuration) : Prop where
  built : configuration.Built
  inDirectory : target.parent = directory
  endsInName : ∃ name, target.EndsIn name
  holdsText : HoldsText store target configuration.toYaml

/-- A store that is faithful to the record of a run: what is recorded as written is there,
no temporary file is left, and all else is as in the beginning. -/
structure Faithful (start : Store) (directory : Path) (requests : List WriteRequest)
    (progress : Progress) : Prop where
  directories : progress.store.SameDirectories start
  scratch : ∀ request ∈ requests, ∀ location,
    start.IsScratch request.target location → progress.store.get? location = none
  holds : ∀ target configuration, progress.written target = some configuration →
    HoldsDocument progress.store directory target configuration
  untouched : ∀ location,
    (∀ target, (progress.written target).isSome → start.locate target ≠ .ok location) →
    progress.store.get? location = start.get? location

/-- The place to which the name of a request leads, where its document can be put. -/
structure IsNewPlace (start : Store) (directory : Path) (store : Store) (request : WriteRequest)
    (place : Location) : Prop where
  noNul : request.target.hasNul = false
  endsInName : ∃ name, request.target.EndsIn name
  inDirectory : request.target.parent = directory
  leads : start.locate request.target = .ok place
  noDirectory : store.get? place ≠ some .directory

/-- A store that shows a new file at a place, and elsewhere the same as another store. -/
structure PutsFile (store next : Store) (place : Location) (bytes : List UInt8) : Prop where
  inPlace : next.get? place = some (.file bytes)
  elsewhere : ∀ location, location ≠ place → next.get? location = store.get? location

/-- A file is still there in a store with the same directories that shows the same at
its place. -/
theorem HoldsText.of_get? {store other : Store} {path : Path} {text : List Char}
    (holds : HoldsText store path text) (same : other.SameDirectories store)
    (shown : ∀ location, store.locate path = .ok location →
      other.get? location = store.get? location) : HoldsText other path text := by
  obtain ⟨location, found, isFile⟩ := Store.read_eq_ok holds.isFile
  exact ⟨holds.noNul,
    Store.read_of_file (same.locate_iff.2 found) ((shown location found).trans isFile)⟩

section Steps

variable {start : Store} {directory : Path} {requests : List WriteRequest} {progress : Progress}
  {request : WriteRequest}

/-- In the beginning the record is empty and the store as it is. -/
theorem Undisturbed.faithful_start (undisturbed : Undisturbed start directory requests) :
    Faithful start directory requests (Progress.start start) where
  directories := fun _ => Iff.rfl
  scratch := undisturbed.free
  holds := fun _ _ isSome => by cases isSome
  untouched := fun _ _ => rfl

/-- A store that shows the same is as faithful. -/
theorem Faithful.of_get? (faithful : Faithful start directory requests progress) {store : Store}
    (same : ∀ location, store.get? location = progress.store.get? location) :
    Faithful start directory requests { progress with store } where
  directories := fun location => by rw [same]; exact faithful.directories location
  scratch := fun other member location isScratch => by
    rw [same]
    exact faithful.scratch other member location isScratch
  holds := fun target configuration recorded =>
    let held := faithful.holds target configuration recorded
    { held with
      holdsText := held.holdsText.of_get? (fun location => by rw [same]) fun location _ =>
        same location }
  untouched := fun location apart => by
    rw [same]
    exact faithful.untouched location apart

/-- A refused write changes nothing where no temporary file stands. -/
theorem Faithful.get?_of_write_error (faithful : Faithful start directory requests progress)
    (member : request ∈ requests) {error : WriteError}
    (refused : (request.configuration.write progress.store request.target (.text "yaml")).1 =
      .error error) (location : Location) :
    (request.configuration.write progress.store request.target (.text "yaml")).2.get? location =
      progress.store.get? location := by
  rcases Configuration.get?_of_write_error refused location with same | ⟨isScratch, gone⟩
  · exact same
  · rw [gone, faithful.scratch request member location
      (faithful.directories.isScratch_iff.1 isScratch)]

/-- A write that came through changes, where no temporary file stands, what its own name
shows, and nothing else. -/
theorem Faithful.putsFile_of_write_ok (undisturbed : Undisturbed start directory requests)
    (faithful : Faithful start directory requests progress) (member : request ∈ requests)
    {record : LogRecord}
    (written : (request.configuration.write progress.store request.target (.text "yaml")).1 =
      .ok record) :
    ∃ place, IsNewPlace start directory progress.store request place ∧
      PutsFile progress.store
        (request.configuration.write progress.store request.target (.text "yaml")).2 place
        (Text.Utf8.encode request.configuration.toYaml) := by
  obtain ⟨content, place, scratch, exported, found, isScratch, -, replaced⟩ :=
    Configuration.write_eq_ok written
  obtain rfl : request.configuration.toYaml = content := Except.ok.inj exported
  obtain ⟨endsInName, noDirectory⟩ := Configuration.endsIn_of_write written
  have isFree := faithful.scratch request member scratch
    (faithful.directories.isScratch_iff.1 isScratch)
  refine ⟨place, ⟨Configuration.hasNul_of_write written, endsInName,
    undisturbed.inDirectory request member, faithful.directories.locate_iff.1 found,
    noDirectory place found⟩, replaced.inPlace, fun location notPlace => ?_⟩
  by_cases atScratch : location = scratch
  · rw [atScratch, replaced.cleared, isFree]
  · exact replaced.elsewhere location notPlace atScratch

/-- No other proper name of the directory leads to the new place. -/
theorem IsNewPlace.locate_ne {store : Store} {place : Location}
    (isPlace : IsNewPlace start directory store request place) {path : Path} {name : String}
    (ends : path.EndsIn name) (isThere : path.parent = directory)
    (differs : path ≠ request.target) : start.locate path ≠ .ok place := by
  obtain ⟨ownName, ownEnds⟩ := isPlace.endsInName
  intro leads
  exact differs (Store.eq_of_locate ends ownEnds (isThere.trans isPlace.inDirectory.symm) leads
    isPlace.leads)

/-- No temporary file of a request stands at the new place. -/
theorem IsNewPlace.ne_of_isScratch (undisturbed : Undisturbed start directory requests)
    (member : request ∈ requests) {store : Store} {place : Location}
    (isPlace : IsNewPlace start directory store request place) {other : WriteRequest}
    (isRequest : other ∈ requests) {location : Location}
    (isScratch : start.IsScratch other.target location) : location ≠ place := by
  rintro rfl
  obtain ⟨temporary, beside, leads⟩ := isScratch
  obtain ⟨sameParent, name, ends⟩ := Path.endsIn_of_temporary beside
  have differs : temporary ≠ request.target := by
    rintro rfl
    exact undisturbed.apart other isRequest request member beside
  exact isPlace.locate_ne ends (sameParent.trans (undisturbed.inDirectory other isRequest)) differs
    leads

/-- A file that is put where no directory is leaves the directories as they are. -/
theorem PutsFile.sameDirectories {store next : Store} {place : Location} {bytes : List UInt8}
    (puts : PutsFile store next place bytes) (noDirectory : store.get? place ≠ some .directory) :
    next.SameDirectories store := by
  intro location
  by_cases atPlace : location = place
  · simp [atPlace, puts.inPlace, noDirectory]
  · rw [puts.elsewhere location atPlace]

/-- The document of another name stays where it is. -/
theorem HoldsDocument.of_putsFile {store next : Store} {target : Path}
    {configuration : Configuration} {place : Location} {bytes : List UInt8}
    (held : HoldsDocument store directory target configuration)
    (isPlace : IsNewPlace start directory store request place)
    (puts : PutsFile store next place bytes) (directories : store.SameDirectories start)
    (differs : target ≠ request.target) : HoldsDocument next directory target configuration := by
  obtain ⟨name, ends⟩ := held.endsInName
  refine { held with
    holdsText := held.holdsText.of_get? (puts.sameDirectories isPlace.noDirectory)
      fun location leads => puts.elsewhere location ?_ }
  rintro rfl
  exact isPlace.locate_ne ends held.inDirectory differs (directories.locate_iff.1 leads)

/-- A store stays faithful if the document of a request is put where its name leads: the
other names lead elsewhere. -/
theorem Faithful.put (undisturbed : Undisturbed start directory requests)
    (faithful : Faithful start directory requests progress) (member : request ∈ requests)
    {place : Location} (isPlace : IsNewPlace start directory progress.store request place)
    {store : Store} (puts : PutsFile progress.store store place
      (Text.Utf8.encode request.configuration.toYaml)) :
    Faithful start directory requests
      { store
        written :=
          Function.update progress.written request.target (some request.configuration) } := by
  have fromStart : store.SameDirectories start := fun location =>
    (puts.sameDirectories isPlace.noDirectory location).trans (faithful.directories location)
  refine ⟨fromStart, ?_, ?_, ?_⟩
  · intro other isRequest location isScratch
    rw [puts.elsewhere location (isPlace.ne_of_isScratch undisturbed member isRequest isScratch)]
    exact faithful.scratch other isRequest location isScratch
  · intro target configuration recorded
    dsimp only at recorded ⊢
    by_cases isTarget : target = request.target
    · subst isTarget
      rw [Function.update_self] at recorded
      obtain rfl := Option.some.inj recorded
      exact ⟨undisturbed.built request member, isPlace.inDirectory, isPlace.endsInName,
        isPlace.noNul, Store.read_of_file (fromStart.locate_iff.2 isPlace.leads) puts.inPlace⟩
    · rw [Function.update_of_ne isTarget] at recorded
      exact (faithful.holds target configuration recorded).of_putsFile isPlace puts
        faithful.directories isTarget
  · intro location noTarget
    dsimp only at noTarget ⊢
    have notPlace : location ≠ place := by
      rintro rfl
      exact noTarget request.target (by rw [Function.update_self]; rfl) isPlace.leads
    rw [puts.elsewhere location notPlace]
    refine faithful.untouched location fun target isSome => ?_
    by_cases isTarget : target = request.target
    · rw [isTarget]
      exact noTarget request.target (by rw [Function.update_self]; rfl)
    · exact noTarget target (by rw [Function.update_of_ne isTarget]; exact isSome)

/-- Every request, whether it comes through or is refused, keeps the store faithful. -/
theorem Faithful.after (undisturbed : Undisturbed start directory requests)
    (faithful : Faithful start directory requests progress) (member : request ∈ requests) :
    Faithful start directory requests (progress.after request) := by
  rcases outcome : request.configuration.write progress.store request.target (.text "yaml") with
    ⟨error | record, store⟩
  · have refused := congrArg Prod.fst outcome
    have same := faithful.get?_of_write_error member refused
    rw [outcome] at same
    rw [Progress.after, outcome]
    exact faithful.of_get? same
  · have written := congrArg Prod.fst outcome
    obtain ⟨place, isPlace, puts⟩ := faithful.putsFile_of_write_ok undisturbed member written
    rw [outcome] at puts
    rw [Progress.after, outcome]
    exact faithful.put undisturbed member isPlace puts

/-- A run of requests keeps the store faithful. -/
theorem Faithful.foldl (undisturbed : Undisturbed start directory requests)
    (faithful : Faithful start directory requests progress) {next : List WriteRequest}
    (members : ∀ request ∈ next, request ∈ requests) :
    Faithful start directory requests (next.foldl Progress.after progress) := by
  induction next generalizing progress with
  | nil => exact faithful
  | cons request others inductionHypothesis =>
      obtain ⟨member, rest⟩ := List.forall_mem_cons.1 members
      exact inductionHypothesis (faithful.after undisturbed member) rest

end Steps

namespace Progress

variable {start : Store} {directory : Path} {requests : List WriteRequest}

/-- The store is faithful to the record at the end of a run. -/
theorem faithful_run (undisturbed : Undisturbed start directory requests) :
    Faithful start directory requests (run start requests) :=
  undisturbed.faithful_start.foldl undisturbed fun _ member => member

/-- At the end of a run, each target of a write that came through reads as the last
configuration written to it. Another name in the directory shows what it showed in the
beginning, and so does every place to which no written target leads. -/
theorem last_write_wins (undisturbed : Undisturbed start directory requests) :
    (∀ target configuration, (run start requests).written target = some configuration →
      ∃ reading, ((Reader.ofYamlFile target).read (run start requests).store).1 = .ok reading ∧
        reading.configuration = configuration) ∧
    (∀ path name, path.EndsIn name → path.parent = directory →
      (run start requests).written path = none →
        ∀ location, start.locate path = .ok location →
          (run start requests).store.get? location = start.get? location) ∧
    (∀ location,
      (∀ target, ((run start requests).written target).isSome →
        start.locate target ≠ .ok location) →
      (run start requests).store.get? location = start.get? location) := by
  have faithful := faithful_run undisturbed
  refine ⟨?_, ?_, faithful.untouched⟩
  · intro target configuration recorded
    have held := faithful.holds target configuration recorded
    exact ⟨_, Configuration.read_yamlFile_toYaml held.built held.holdsText, rfl⟩
  · intro path name ends inDirectory unwritten location leads
    refine faithful.untouched location fun target isSome targetLeads => ?_
    obtain ⟨configuration, recorded⟩ := Option.isSome_iff_exists.1 isSome
    have held := faithful.holds target configuration recorded
    obtain ⟨targetName, targetEnds⟩ := held.endsInName
    obtain rfl := Store.eq_of_locate ends targetEnds (inDirectory.trans held.inDirectory.symm)
      leads targetLeads
    rw [unwritten] at recorded
    cases recorded

/-- A store with a file at one name and a directory at another. -/
def partlyBlocked : Store :=
  (Store.empty.set ["a"] (.file (Text.Utf8.encode "nodes: []\n".toList))).set ["d"] .directory

/-- Two writes to a file with one to a directory between them. -/
def blockedBetween : List WriteRequest :=
  [{ configuration := .empty, target := .ofString "a" },
    { configuration := Configuration.eachStyle, target := .ofString "d" },
    { configuration := Configuration.eachStyle, target := .ofString "a" }]

/-- The second of two writes wins over the first, and a refused one between them leaves
nothing behind. -/
theorem last_write_wins_blocked_between :
    Undisturbed partlyBlocked (.ofString "") blockedBetween ∧
      ∃ reading, ((Reader.ofYamlFile (.ofString "a")).read
          (run partlyBlocked blockedBetween).store).1 = .ok reading ∧
        reading.configuration = Configuration.eachStyle := by
  have undisturbed : Undisturbed partlyBlocked (.ofString "") blockedBetween := by
    have places : ∀ request ∈ blockedBetween,
        (temporaryPath? request.target).map partlyBlocked.locate = some (.ok ["a.nodeconf.tmp"]) ∨
        (temporaryPath? request.target).map partlyBlocked.locate = some (.ok ["d.nodeconf.tmp"]) :=
      by decide +kernel
    refine ⟨?_, by decide +kernel, by decide +kernel, ?_⟩
    · simp [blockedBetween, Configuration.Built.empty, Configuration.built_eachStyle]
    · rintro request member location ⟨temporary, beside, leads⟩
      have place := places request member
      rw [beside, Option.map_some, leads] at place
      simp only [Option.some.injEq, Except.ok.injEq] at place
      rcases place with rfl | rfl <;> rfl
  have recorded : (run partlyBlocked blockedBetween).written (.ofString "a") =
      some Configuration.eachStyle := by decide +kernel
  exact ⟨undisturbed, (last_write_wins undisturbed).1 _ _ recorded⟩

end Progress

end Roster
