import Roster.Proofs.Source.PlainFile
import Roster.Proofs.Text.WellFormed

/-!
# When a plain text file cannot be read

A plain text file can be read exactly if its bytes are well-formed, wherever in the file others
stand: the text is decoded as a whole, before any line is looked at, and every text has
descriptors that keep the rules. The error locates the end of the longest well-formed front.
-/

namespace Roster

open Roster.Storage (Path Store)
open Roster.Text.Utf8 (IsWellFormed IsLongestFront)

namespace Text.Utf8

/-- The bytes of a file without one byte order mark in front. -/
def unmarked (bytes : List UInt8) : List UInt8 :=
  if byteOrderMark <+: bytes then bytes.drop byteOrderMark.length else bytes

/-- The bytes of a file that ends inside a byte order mark. -/
def IsMarkFragment (bytes : List UInt8) : Prop := bytes = [0xEF] ∨ bytes = [0xEF, 0xBB]

instance (bytes : List UInt8) : Decidable (IsMarkFragment bytes) :=
  inferInstanceAs (Decidable (_ ∨ _))

/-- A front of a byte order mark is empty, a fragment or the whole mark. -/
theorem cases_of_prefix_byteOrderMark {bytes : List UInt8} (stops : bytes <+: byteOrderMark) :
    bytes = [] ∨ IsMarkFragment bytes ∨ bytes = byteOrderMark := by
  have bounded : bytes.length ≤ 3 := stops.length_le
  have lengths : bytes.length = 0 ∨ bytes.length = 1 ∨ bytes.length = 2 ∨ bytes.length = 3 := by
    omega
  rw [List.prefix_iff_eq_take.1 stops]
  rcases lengths with none | one | two | three
  · exact .inl (by rw [none]; rfl)
  · exact .inr (.inl (.inl (by rw [one]; rfl)))
  · exact .inr (.inl (.inr (by rw [two]; rfl)))
  · exact .inr (.inr (by rw [three]; rfl))

/-- The text of a file is in its bytes behind the mark, unless it ends inside one. -/
theorem textBytes_eq_unmarked {bytes : List UInt8} (whole : ¬IsMarkFragment bytes) :
    textBytes bytes = unmarked bytes := by
  rw [textBytes]
  split
  · rename_i stops
    rcases cases_of_prefix_byteOrderMark (List.isPrefixOf_iff_prefix.1 stops) with
      rfl | fragment | rfl
    · rfl
    · exact absurd fragment whole
    · rfl
  · simp only [unmarked, List.isPrefixOf_iff_prefix]

end Text.Utf8

open Text.Utf8 (unmarked IsMarkFragment)

variable {store : Store} {path : Path} {bytes : List UInt8}

/-- A file whose bytes decode to a text is read. -/
theorem exists_read_of_decode {text : List Char} (noNul : path.hasNul = false)
    (isFile : store.read path = .ok bytes) (decoded : Text.Utf8.read bytes = .ok text) :
    ∃ reading, ((Reader.plainFile path).read store).1 = .ok reading := by
  have found : readFileText store path = .ok (Text.unifyNewlines text) := by
    simp [readFileText, noNul, isFile, decoded, Except.mapError, bind, Except.bind, pure,
      Except.pure]
  obtain ⟨reading, read, -⟩ :=
    exists_countedReading isDescriptor_of_mem_plainDescriptors path.toString
  refine ⟨reading, ?_⟩
  rw [Reader.read, readPlainFile, found]
  exact read

/-- A file whose bytes do not is refused with their first fault. -/
theorem read_of_fault {fault : Text.Utf8.Fault} (noNul : path.hasNul = false)
    (isFile : store.read path = .ok bytes) (faulty : Text.Utf8.read bytes = .error fault) :
    ((Reader.plainFile path).read store).1 = .error (.encoding fault) := by
  simp [Reader.read, readPlainFile, readFileText, noNul, isFile, faulty, Except.mapError, bind,
    Except.bind]

/-- Reading a file fails exactly if its bytes behind a byte order mark are not well-formed. It
fails for no other reason than this, and the place of the error is the length of the longest
well-formed front. A file that ends inside a byte order mark is not concerned. -/
theorem read_plainFile_error_iff (noNul : path.hasNul = false)
    (isFile : store.read path = .ok bytes) (whole : ¬IsMarkFragment bytes) :
    ((∃ error, ((Reader.plainFile path).read store).1 = .error error) ↔
        ¬IsWellFormed (unmarked bytes)) ∧
      (∀ error, ((Reader.plainFile path).read store).1 = .error error →
        ∃ fault, error = .encoding fault ∧ IsLongestFront (unmarked bytes) fault.start) ∧
      (IsWellFormed (unmarked bytes) →
        ∃ reading, ((Reader.plainFile path).read store).1 = .ok reading) := by
  have decodes : Text.Utf8.read bytes = Text.Utf8.decode (unmarked bytes) :=
    congrArg Text.Utf8.decode (Text.Utf8.textBytes_eq_unmarked whole)
  rw [Text.Utf8.isWellFormed_iff]
  cases decoded : Text.Utf8.decode (unmarked bytes) with
  | ok text =>
      obtain ⟨reading, read⟩ := exists_read_of_decode noNul isFile (decodes.trans decoded)
      simp [read]
  | error fault =>
      have refused := read_of_fault noNul isFile (decodes.trans decoded)
      have start := Text.Utf8.isLongestFront_of_decode decoded
      simp [refused, start]

/-- A file with a byte order mark and an overlong form of NUL in a comment. -/
def overlongBytes : List UInt8 := Text.Utf8.byteOrderMark ++ [0x61, 0x20, 0x23, 0xC0, 0x80, 0x0A]

/-- The store with this file. -/
def storeWithOverlong : Store := Store.empty.set ["cluster.conf"] (.file overlongBytes)

theorem read_plainFile_overlong :
    let outcome := ((Reader.plainFile (.ofString "cluster.conf")).read storeWithOverlong).1
    (Path.ofString "cluster.conf").hasNul = false ∧
      storeWithOverlong.read (.ofString "cluster.conf") = .ok overlongBytes ∧
      ¬IsMarkFragment overlongBytes ∧ ¬IsWellFormed (unmarked overlongBytes) ∧
      ∃ error, outcome = .error error ∧
        ∃ fault, error = .encoding fault ∧ IsLongestFront (unmarked overlongBytes) fault.start := by
  have noNul : (Path.ofString "cluster.conf").hasNul = false := by decide +kernel
  have isFile : storeWithOverlong.read (.ofString "cluster.conf") = .ok overlongBytes := by
    decide +kernel
  have whole : ¬IsMarkFragment overlongBytes := by decide +kernel
  have illFormed : ¬IsWellFormed (unmarked overlongBytes) := by decide +kernel
  obtain ⟨refused, located, -⟩ := read_plainFile_error_iff noNul isFile whole
  obtain ⟨error, isError⟩ := refused.2 illFormed
  exact ⟨noNul, isFile, whole, illFormed, error, isError, located error isError⟩

end Roster
