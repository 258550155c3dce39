import Roster.Proofs.Storage.Replace
import Roster.Proofs.Text.Utf8
import Roster.Source

/-!
# The text of a file

Where a path leads to a file, a reader finds the text of its bytes, except for a
byte order mark in front and for how newlines are written.
-/

namespace Roster

open Roster.Storage (Path Store Location)

/-- What is at a path that can be read as a text. -/
theorem readFileText_eq_ok {store : Store} {path : Path} {text : List Char}
    (readable : readFileText store path = .ok text) :
    path.hasNul = false ∧ ∃ location bytes, store.locate path = .ok location ∧
      store.get? location = some (.file bytes) := by
  unfold readFileText at readable
  split at readable
  · cases readable
  · rename_i clean
    obtain ⟨bytes, found, -⟩ := bind_eq_ok.1 readable
    obtain ⟨location, located, isFile⟩ := Store.read_eq_ok (mapError_eq_ok.1 found)
    exact ⟨Bool.eq_false_iff.2 clean, location, bytes, located, isFile⟩

/-- A text that does not begin with a byte order mark is left alone. -/
theorem withoutMark_eq_self {text : List Char}
    (noMark : text.head? ≠ some Text.Utf8.markCharacter) : Text.Utf8.withoutMark text = text := by
  cases text with
  | nil => rfl
  | cons c rest => exact if_neg (by simpa using noMark)

/-- The text of a file without a byte order mark in front and with newlines unified. -/
theorem readFileText_of_file {store : Store} {path : Path} {location : Location}
    {text : List Char} (clean : path.hasNul = false) (found : store.locate path = .ok location)
    (isFile : store.get? location = some (.file (Text.Utf8.encode text))) :
    readFileText store path = .ok (Text.unifyNewlines (Text.Utf8.withoutMark text)) := by
  simp [readFileText, clean, Store.read_of_file found isFile, Text.Utf8.read_encode,
    Except.mapError, bind, Except.bind, pure, Except.pure]

/-- A path leads to a file that holds a text. A byte order mark in front of the file
is the first character of the text. -/
structure HoldsText (store : Store) (path : Path) (text : List Char) : Prop where
  noNul : path.hasNul = false
  isFile : store.read path = .ok (Text.Utf8.encode text)

/-- What a reader finds in a file that holds a text. -/
theorem HoldsText.readFileText {store : Store} {path : Path} {text : List Char}
    (holds : HoldsText store path text) :
    readFileText store path = .ok (Text.unifyNewlines (Text.Utf8.withoutMark text)) := by
  obtain ⟨location, found, isFile⟩ := Store.read_eq_ok holds.isFile
  exact readFileText_of_file holds.noNul found isFile

/-- The store with nothing but a file that holds a text. -/
def storeHolding (name : String) (text : List Char) : Store :=
  Store.empty.set [name] (.file (Text.Utf8.encode text))

/-- Where a text can be read, another one could be read instead. -/
theorem exists_readFileText {store : Store} {path : Path} {before : List Char}
    (readable : readFileText store path = .ok before) (text : List Char) :
    ∃ replaced, readFileText replaced path =
      .ok (Text.unifyNewlines (Text.Utf8.withoutMark text)) := by
  obtain ⟨clean, location, bytes, found, isFile⟩ := readFileText_eq_ok readable
  have noDirectory : store.get? location ≠ some .directory := by
    rw [isFile]
    exact fun same => by cases same
  refine ⟨store.set location (.file (Text.Utf8.encode text)), ?_⟩
  exact readFileText_of_file clean
    (Store.locate_of_keepsDirectories (Store.keepsDirectories_set _ noDirectory) found)
    (Store.get?_set_same store (Store.ne_nil_of_noDirectory noDirectory) _)

end Roster
