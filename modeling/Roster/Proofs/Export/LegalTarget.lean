import Mathlib.Data.String.Basic
import Roster.Proofs.Export.AllOrNothing

/-!
# Which targets can be written

A write goes through a temporary file, whose name is longer than that of its target. So a
target whose own name and path the system accepts, in a directory that is there, can be written
exactly if there is room for the longer name, too. Without it the write fails and leaves the
store alone.
-/

namespace Roster

open Roster.Storage (Path Store Location nameLimit pathLimit)

namespace Storage

variable {store : Store} {target : Path} {directory : Location} {name : String}

/-- A target that is a name in a directory that is there. No directory stands at the target, and
nothing at the place of its temporary file. -/
structure Store.IsLegalTarget (store : Store) (target : Path) (directory : Location)
    (name : String) : Prop where
  isLast : target.name? = some name
  forward : name ≠ ".."
  short : name.utf8ByteSize ≤ nameLimit
  noNul : target.hasNul = false
  reached : store.locate target.parent = .ok directory
  isDirectory : store.get? directory = some .directory
  noDirectory : store.get? (directory ++ [name]) ≠ some .directory
  vacant : store.get? (directory ++ [name ++ temporarySuffix]) = none

/-- There is room for the name of a temporary file, and for its path. -/
structure HasRoom (target : Path) (name : String) : Prop where
  inName : name.utf8ByteSize + temporarySuffix.utf8ByteSize ≤ nameLimit
  inPath : target.toString.utf8ByteSize + temporarySuffix.utf8ByteSize ≤ pathLimit

/-- Where a target ends in a name, its temporary file has the same path but for the suffix. -/
def temporaryOf (target : Path) (name : String) : Path := target.withName (name ++ temporarySuffix)

/-- How a write fails that finds no room for the temporary file. -/
def tooLong (target : Path) (name : String) : Failure :=
  { refusal := .nameTooLong, path := temporaryOf target name, target := none }

theorem temporaryPath?_eq (isLast : target.name? = some name) :
    temporaryPath? target = some (temporaryOf target name) := by
  rw [temporaryPath?, isLast]
  rfl

namespace Path

theorem components_eq (isLast : target.name? = some name) :
    target.components = target.parent.components ++ [name] :=
  (List.dropLast_append_getLast? name isLast).symm

theorem components_temporaryOf (target : Path) (name : String) :
    (temporaryOf target name).components =
      target.parent.components ++ [name ++ temporarySuffix] :=
  rfl

/-- Joining texts, the last of which is longer. -/
theorem intercalate_concat_append (separator last suffix : String) (front : List String) :
    separator.intercalate (front ++ [last ++ suffix]) =
      separator.intercalate (front ++ [last]) ++ suffix := by
  induction front with
  | nil => simp
  | cons first others inductionHypothesis =>
      cases others with
      | nil => simp [String.append_assoc]
      | cons second more =>
          simpa [String.append_assoc] using inductionHypothesis

theorem toString_temporaryOf (isLast : target.name? = some name) :
    (temporaryOf target name).toString = target.toString ++ temporarySuffix := by
  have whole := intercalate_concat_append "/" name temporarySuffix target.parent.components
  simpa [toString, components_temporaryOf, components_eq isLast] using whole

theorem hasNul_temporaryOf (isLast : target.name? = some name) (noNul : target.hasNul = false) :
    (temporaryOf target name).hasNul = false := by
  have clean : '\x00' ∉ temporarySuffix.toList := by decide
  rw [hasNul, components_eq isLast] at noNul
  rw [hasNul, components_temporaryOf]
  simpa [clean] using noNul

end Path

namespace Store

/-- From a directory, a walk goes on to every name that is not too long. -/
theorem walk_concat {here : Location} {components : List String}
    (reached : store.walk here components = .ok directory)
    (isDirectory : store.get? directory = some .directory) (forward : name ≠ "..") :
    store.walk here (components ++ [name]) =
      if name.utf8ByteSize > nameLimit then .error .nameTooLong
      else .ok (directory ++ [name]) := by
  rw [walk_append, reached]
  simp [Except.bind, walk, isDirectory, forward]

namespace IsLegalTarget

variable (legal : store.IsLegalTarget target directory name)

include legal

/-- With room for it, the temporary file has a place beside the target. -/
theorem locate_temporaryOf (room : HasRoom target name) :
    store.locate (temporaryOf target name) = .ok (directory ++ [name ++ temporarySuffix]) := by
  have inPath := room.inPath
  have inName := room.inName
  rw [← String.utf8ByteSize_append] at inPath inName
  rw [locate, Path.toString_temporaryOf legal.isLast, if_neg (Nat.not_lt.2 inPath),
    Path.components_temporaryOf,
    walk_concat (walk_of_locate legal.reached) legal.isDirectory
      (append_temporarySuffix_ne_dots name),
    if_neg (Nat.not_lt.2 inName)]

/-- Without room for it, the temporary file has no place. -/
theorem locate_temporaryOf_error (noRoom : ¬HasRoom target name) :
    store.locate (temporaryOf target name) = .error .nameTooLong := by
  rw [locate, Path.toString_temporaryOf legal.isLast, Path.components_temporaryOf,
    walk_concat (walk_of_locate legal.reached) legal.isDirectory
      (append_temporarySuffix_ne_dots name)]
  split
  · rfl
  · rename_i inPath
    rw [if_pos]
    by_contra inName
    rw [String.utf8ByteSize_append] at inPath inName
    exact noRoom ⟨Nat.not_lt.1 inName, Nat.not_lt.1 inPath⟩

/-- Where the temporary file has room, the target has its place. -/
theorem locate_target (room : HasRoom target name) :
    store.locate target = .ok (directory ++ [name]) := by
  have inPath : target.toString.utf8ByteSize ≤ pathLimit :=
    Nat.le_trans (Nat.le_add_right _ _) room.inPath
  rw [locate, if_neg (Nat.not_lt.2 inPath), Path.components_eq legal.isLast,
    walk_concat (walk_of_locate legal.reached) legal.isDirectory legal.forward,
    if_neg (Nat.not_lt.2 legal.short)]

/-- With room for the temporary file, it is written and takes the place of the target. -/
theorem exists_replace (room : HasRoom target name) (bytes : List UInt8) :
    ∃ after, store.replace (temporaryOf target name) target bytes = (.ok (), after) := by
  let scratch := directory ++ [name ++ temporarySuffix]
  have found : store.locate (temporaryOf target name) = .ok scratch :=
    legal.locate_temporaryOf room
  have free : store.get? scratch ≠ some .directory := by
    rw [legal.vacant]
    exact nofun
  have inside := ne_nil_of_noDirectory free
  have kept := keepsDirectories_set (.file bytes) free
  have wrote : store.write (temporaryOf target name) bytes =
      .ok (store.set scratch (.file bytes)) := by
    simp only [write, about, found, bind, Except.bind, legal.vacant, scratch]
    rfl
  -- Only the temporary file is new when the target is replaced.
  have isWritten : (store.set scratch (.file bytes)).get? scratch = some (.file bytes) :=
    get?_set_same store inside _
  have noDirectory : (store.set scratch (.file bytes)).get? (directory ++ [name]) ≠
      some .directory := fun isDirectory =>
    legal.noDirectory (keepsDirectories_of_set_file store inside bytes _ isDirectory)
  have isName : (target.name? == some "..") = false := by simp [legal.isLast, legal.forward]
  have renamed : (store.set scratch (.file bytes)).rename (temporaryOf target name) target =
      .ok (((store.set scratch (.file bytes)).erase scratch).set (directory ++ [name])
        (.file bytes)) := by
    simp only [rename, locate_of_keepsDirectories kept found,
      locate_of_keepsDirectories kept (legal.locate_target room), isName, isWritten, bind,
      Except.bind, Bool.false_eq_true, if_false]
    rfl
  refine ⟨((store.set scratch (.file bytes)).erase scratch).set (directory ++ [name])
    (.file bytes), ?_⟩
  simp [replace, wrote, renamed, Except.mapError, bind, Except.bind]

/-- Without room for the temporary file, nothing is written. -/
theorem replace_error (noRoom : ¬HasRoom target name) (bytes : List UInt8) :
    store.replace (temporaryOf target name) target bytes =
      (.error (tooLong target name), store) := by
  have noPlace := legal.locate_temporaryOf_error noRoom
  simp [replace, write, discard, remove, about, noPlace, tooLong, Except.mapError, bind,
    Except.bind]

end IsLegalTarget

end Store

end Storage

namespace Configuration

variable {configuration : Configuration} {store : Store} {target : Path} {directory : Location}
  {name : String} {format : Datum} {content : List Char}

/-- With room for the temporary file, the export is written to a legal target. -/
theorem exists_write (legal : store.IsLegalTarget target directory name)
    (exported : configuration.exportAs format = .ok content)
    (room : Storage.HasRoom target name) :
    ∃ record after, configuration.write store target format = (.ok record, after) ∧
      after.locate target = .ok (directory ++ [name]) ∧
      after.get? (directory ++ [name]) = some (.file (Text.Utf8.encode content)) := by
  obtain ⟨after, replaced⟩ := legal.exists_replace room (Text.Utf8.encode content)
  have clean := Storage.Path.hasNul_temporaryOf legal.isLast legal.noNul
  have written : configuration.write store target format =
      (.ok (writtenRecord configuration.size target format), after) := by
    simp [write, exported, Storage.temporaryPath?_eq legal.isLast, clean, replaced]
  obtain ⟨sameContent, location, scratch, exportedToo, found, -, foundAfter, holds⟩ :=
    write_eq_ok (congrArg Prod.fst written)
  obtain rfl : content = sameContent := Except.ok.inj (exported.symm.trans exportedToo)
  obtain rfl : directory ++ [name] = location :=
    Except.ok.inj ((legal.locate_target room).symm.trans found)
  rw [written] at foundAfter holds
  exact ⟨_, after, written, foundAfter, holds.inPlace⟩

/-- Without it, the write fails and leaves the store alone. -/
theorem write_error (legal : store.IsLegalTarget target directory name)
    (exported : configuration.exportAs format = .ok content)
    (noRoom : ¬Storage.HasRoom target name) :
    configuration.write store target format =
      (.error (.storage (Storage.tooLong target name)), store) := by
  have clean := Storage.Path.hasNul_temporaryOf legal.isLast legal.noNul
  simp [write, exported, Storage.temporaryPath?_eq legal.isLast, clean,
    legal.replace_error noRoom]

/-- An export is written to a legal target exactly if there is room for the name and the path of
the temporary file, and then the target holds the export. Otherwise the write fails, for the path
of the temporary file is too long, and leaves the store alone. -/
theorem write_legalTarget_iff (legal : store.IsLegalTarget target directory name)
    (exported : configuration.exportAs format = .ok content) :
    ((∃ record after, configuration.write store target format = (.ok record, after) ∧
        after.locate target = .ok (directory ++ [name]) ∧
        after.get? (directory ++ [name]) = some (.file (Text.Utf8.encode content))) ↔
      Storage.HasRoom target name) ∧
    (¬Storage.HasRoom target name → configuration.write store target format =
      (.error (.storage (Storage.tooLong target name)), store)) := by
  refine ⟨⟨?_, exists_write legal exported⟩, write_error legal exported⟩
  rintro ⟨record, after, written, -⟩
  by_contra noRoom
  rw [write_error legal exported noRoom] at written
  cases written

/-- A configuration with one entry. -/
def singleNode : Configuration := { entries := [{ index := 0, descriptor := "a" }] }

theorem exportAs_singleNode : singleNode.exportAs (.text "text") = .ok "a\n".toList := by
  decide +kernel

/-- A store with an empty directory. -/
def storeWithDirectory : Store := Store.empty.set ["d"] .directory

/-- A name that consists of one letter. -/
def repeated (count : Nat) (letter : Char) : String := String.ofList (List.replicate count letter)

theorem utf8ByteSize_repeated (count : Nat) (letter : Char) :
    (repeated count letter).utf8ByteSize = count * letter.utf8Size := by
  rw [repeated, String.utf8ByteSize_ofList]
  induction count with
  | zero => simp
  | succ less inductionHypothesis =>
      rw [List.replicate_succ, String.utf8Len_cons, inductionHypothesis, Nat.succ_mul]

theorem repeated_ne_dots {count : Nat} (long : 2 < count) (letter : Char) :
    repeated count letter ≠ ".." := by
  intro same
  have lengths := congrArg String.length same
  have dots : "..".length = 2 := rfl
  rw [repeated, String.length_ofList, List.length_replicate] at lengths
  omega

theorem hasNul_repeated {letter : Char} (clean : letter ≠ '\x00') (directory : List String)
    (count : Nat) :
    Path.hasNul { components := directory ++ [repeated count letter] } =
      Path.hasNul { components := directory } := by
  have absent : '\x00' ∉ (repeated count letter).toList := by
    rw [repeated, String.toList_ofList]
    exact fun member => clean (List.eq_of_mem_replicate member).symm
  simp [Path.hasNul, absent]

/-- The longest name for which there is room, made of letters of two bytes. -/
def longestName : String := repeated 121 'é'

/-- The path of this name in the directory. -/
def longestTarget : Path := { components := ["d"] ++ [longestName] }

theorem write_legalTarget_longest :
    storeWithDirectory.IsLegalTarget longestTarget ["d"] longestName ∧
      ∃ record after,
        singleNode.write storeWithDirectory longestTarget (.text "text") = (.ok record, after) ∧
        after.locate longestTarget = .ok ["d", longestName] ∧
        after.get? ["d", longestName] = some (.file (Text.Utf8.encode "a\n".toList)) := by
  have size : longestName.utf8ByteSize = 242 := utf8ByteSize_repeated 121 'é'
  have vacant (name : String) : storeWithDirectory.get? (["d"] ++ [name]) = none := by
    rw [storeWithDirectory, Store.get?_set _ (by decide), if_neg (by simp)]
    rfl
  have legal : storeWithDirectory.IsLegalTarget longestTarget ["d"] longestName :=
    { isLast := rfl
      forward := repeated_ne_dots (by decide) 'é'
      short := by simp [size, nameLimit]
      noNul := hasNul_repeated (by decide) ["d"] 121
      reached := by decide +kernel
      isDirectory := by decide +kernel
      noDirectory := by rw [vacant longestName]; exact nofun
      vacant := vacant (longestName ++ temporarySuffix) }
  have path : longestTarget.toString = "d/" ++ longestName := by
    simp [Path.toString, longestTarget]
  have room : Storage.HasRoom longestTarget longestName :=
    { inName := by rw [size]; decide +kernel
      inPath := by rw [path, String.utf8ByteSize_append, size]; decide +kernel }
  exact ⟨legal, (write_legalTarget_iff legal exportAs_singleNode).1.2 room⟩

/-- The shortest name for which there is no room. -/
def crowdedName : String := repeated 243 'a'

/-- The path of this name in the working directory. -/
def crowdedTarget : Path := { components := [crowdedName] }

/-- A legal target that is not written. -/
theorem legalTarget_not_written :
    Store.empty.IsLegalTarget crowdedTarget [] crowdedName ∧
      singleNode.exportAs (.text "text") = .ok "a\n".toList ∧
      ¬∃ record after, singleNode.write .empty crowdedTarget (.text "text") =
        (.ok record, after) := by
  have size : crowdedName.utf8ByteSize = 243 := utf8ByteSize_repeated 243 'a'
  have legal : Store.empty.IsLegalTarget crowdedTarget [] crowdedName :=
    { isLast := rfl
      forward := repeated_ne_dots (by decide) 'a'
      short := by simp [size, nameLimit]
      noNul := hasNul_repeated (by decide) [] 243
      reached := by decide +kernel
      isDirectory := rfl
      noDirectory := by simp [Store.get?, Store.empty]
      vacant := by simp [Store.get?, Store.empty] }
  have noRoom : ¬Storage.HasRoom crowdedTarget crowdedName := fun room => by
    have inName := room.inName
    rw [size] at inName
    revert inName
    decide +kernel
  refine ⟨legal, exportAs_singleNode, ?_⟩
  rintro ⟨record, after, written⟩
  rw [write_error legal exportAs_singleNode noRoom] at written
  cases written

end Configuration

end Roster
