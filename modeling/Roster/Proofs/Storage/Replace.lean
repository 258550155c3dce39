import Roster.Export
import Roster.Proofs.Outcome
import Roster.Proofs.Storage.View

/-!
# Replacing a file

What has happened to a store when an operation came through, and what has happened
when it did not. A file is replaced through a temporary one: either the target
holds the new bytes and the temporary file is gone, or nothing has changed except
that a temporary file may have been cleared away.
-/

namespace Roster.Storage

namespace Store

/-- The view of a store in which a file has been replaced through a temporary one. -/
structure Replaced (before after : Store) (location scratch : Location) (bytes : List UInt8) :
    Prop where
  inPlace : after.get? location = some (.file bytes)
  cleared : after.get? scratch = none
  elsewhere : ∀ other, other ≠ location → other ≠ scratch →
    after.get? other = before.get? other

/-- A write that came through found no directory at its place and put the bytes
there. -/
theorem write_eq_ok {store written : Store} {path : Path} {bytes : List UInt8}
    (done : store.write path bytes = .ok written) :
    ∃ location, store.locate path = .ok location ∧ store.get? location ≠ some .directory ∧
      written = store.set location (.file bytes) := by
  obtain ⟨location, found, wrote⟩ := bind_eq_ok.1 (mapError_eq_ok.1 done)
  split at wrote
  · cases wrote
  · rename_i free
    exact ⟨location, found, free, (Except.ok.inj wrote).symm⟩

/-- Where no directory stands, bytes can be put. -/
theorem write_of_free {store : Store} {path : Path} {location : Location} {bytes : List UInt8}
    (found : store.locate path = .ok location) (free : store.get? location ≠ some .directory) :
    store.write path bytes = .ok (store.set location (.file bytes)) := by
  simp only [write, about, found, bind, Except.bind]
  rfl

/-- What a removal that came through took away was a file. -/
theorem remove_eq_ok {store cleaned : Store} {path : Path}
    (done : store.remove path = .ok cleaned) :
    ∃ location bytes, store.locate path = .ok location ∧
      store.get? location = some (.file bytes) ∧ cleaned = store.erase location := by
  obtain ⟨location, found, removed⟩ := bind_eq_ok.1 (mapError_eq_ok.1 done)
  split at removed
  · cases removed
  · cases removed
  · rename_i bytes isFile
    exact ⟨location, bytes, found, isFile, (Except.ok.inj removed).symm⟩

/-- A file can be taken away. -/
theorem remove_of_file {store : Store} {path : Path} {location : Location} {bytes : List UInt8}
    (found : store.locate path = .ok location) (isFile : store.get? location = some (.file bytes)) :
    store.remove path = .ok (store.erase location) := by
  simp [remove, about, found, isFile, bind, Except.bind, Except.mapError, pure, Except.pure]

/-- What a read that came through has found. -/
theorem read_eq_ok {store : Store} {path : Path} {bytes : List UInt8}
    (done : store.read path = .ok bytes) :
    ∃ location, store.locate path = .ok location ∧ store.get? location = some (.file bytes) := by
  obtain ⟨location, found, read⟩ := bind_eq_ok.1 (mapError_eq_ok.1 done)
  split at read
  · cases read
  · cases read
  · rename_i isFile
    exact ⟨location, found, Except.ok.inj read ▸ isFile⟩

/-- The bytes of a file can be read. -/
theorem read_of_file {store : Store} {path : Path} {location : Location} {bytes : List UInt8}
    (found : store.locate path = .ok location) (isFile : store.get? location = some (.file bytes)) :
    store.read path = .ok bytes := by
  simp [read, about, found, isFile, bind, Except.bind, Except.mapError, pure, Except.pure]

/-- A renaming that came through moved what was at its path to a place where no
directory stood. -/
theorem rename_eq_ok {store moved : Store} {path target : Path}
    (done : store.rename path target = .ok moved) :
    ∃ source location item, store.locate path = .ok source ∧
      store.locate target = .ok location ∧ target.name? ≠ some ".." ∧
      store.get? source = some item ∧ store.get? location ≠ some .directory ∧
      moved = (store.erase source).set location item := by
  obtain ⟨source, foundSource, onward⟩ := bind_eq_ok.1 (mapError_eq_ok.1 done)
  obtain ⟨location, foundTarget, renamed⟩ := bind_eq_ok.1 onward
  split at renamed
  · cases renamed
  · rename_i isName
    split at renamed
    · cases renamed
    · cases renamed
    · rename_i item isItem free
      refine ⟨source, location, item, foundSource, foundTarget, ?_, isItem, free,
        (Except.ok.inj renamed).symm⟩
      simpa using isName

/-- A directory of a store in which a file was put somewhere was there before. -/
theorem keepsDirectories_of_set_file (store : Store) {location : Location}
    (inside : location ≠ []) (bytes : List UInt8) :
    (store.set location (.file bytes)).KeepsDirectories store := by
  intro other isDirectory
  rw [get?_set store inside] at isDirectory
  split at isDirectory
  · cases isDirectory
  · exact isDirectory

/-- A place without a directory is not the working directory. -/
theorem ne_nil_of_noDirectory {store : Store} {location : Location}
    (noDirectory : store.get? location ≠ some .directory) : location ≠ [] := by
  rintro rfl
  exact noDirectory (get?_nil store)

/-- A failure that finds nothing to clear away leaves the store alone; otherwise
exactly a file at the temporary path is gone. -/
theorem discard_store (store : Store) (temporary : Path) (failure : Failure) :
    (store.discard temporary failure).2 = store ∨
      ∃ scratch bytes, store.locate temporary = .ok scratch ∧
        store.get? scratch = some (.file bytes) ∧
        (store.discard temporary failure).2 = store.erase scratch := by
  cases removed : store.remove temporary with
  | ok cleaned =>
      obtain ⟨scratch, bytes, found, isFile, rfl⟩ := remove_eq_ok removed
      exact .inr ⟨scratch, bytes, found, isFile, by simp [discard, removed]⟩
  | error later =>
      left
      simp only [discard, removed]
      split <;> rfl

/-- A replacement that came through wrote the temporary file and then renamed it. -/
theorem replace_eq_ok {store after : Store} {temporary target : Path} {bytes : List UInt8}
    (done : store.replace temporary target bytes = (.ok (), after)) :
    ∃ written, store.write temporary bytes = .ok written ∧
      written.rename temporary target = .ok after := by
  dsimp only [replace] at done
  split at done
  · rename_i replaced came
    obtain ⟨written, wrote, renamed⟩ := bind_eq_ok.1 came
    obtain rfl := (Prod.mk.inj done).2
    exact ⟨written, mapError_eq_ok.1 wrote, mapError_eq_ok.1 renamed⟩
  · cases done

/-- What a replacement that came through did to the view, if the target and the
temporary file stand at different places. -/
theorem replaced_of_replace {store after : Store} {temporary target : Path} {bytes : List UInt8}
    (apart : ∀ location, store.locate target = .ok location → target.name? ≠ some ".." →
      store.locate temporary ≠ .ok location)
    (done : store.replace temporary target bytes = (.ok (), after)) :
    ∃ location scratch, store.locate target = .ok location ∧
      store.locate temporary = .ok scratch ∧ after.locate target = .ok location ∧
      Replaced store after location scratch bytes := by
  obtain ⟨written, wrote, renamed⟩ := replace_eq_ok done
  obtain ⟨scratch, foundScratch, freeScratch, rfl⟩ := write_eq_ok wrote
  obtain ⟨source, location, item, foundSource, foundTarget, isName, isItem, free, rfl⟩ :=
    rename_eq_ok renamed
  have scratchInside := ne_nil_of_noDirectory freeScratch
  have locationInside := ne_nil_of_noDirectory free
  have gained := keepsDirectories_of_set_file store scratchInside bytes
  -- The temporary path still leads where it led when the file was written.
  have sameSource : source = scratch := by
    have again := locate_of_keepsDirectories gained foundSource
    rw [foundScratch] at again
    exact (Except.ok.inj again).symm
  subst sameSource
  have foundBefore := locate_of_keepsDirectories gained foundTarget
  have differs : location ≠ source := by
    rintro rfl
    exact apart location foundBefore isName foundScratch
  have isWritten : item = .file bytes := by
    rw [get?_set_same store scratchInside] at isItem
    exact (Option.some.inj isItem).symm
  subst isWritten
  have isFile : (store.set source (.file bytes)).get? source ≠ some .directory := by
    rw [isItem]
    simp
  have freeAfter : ((store.set source (.file bytes)).erase source).get? location ≠
      some .directory := by
    rw [get?_erase _ scratchInside, if_neg differs]
    exact free
  refine ⟨location, source, foundBefore, foundScratch, ?_, ?_, ?_, ?_⟩
  · have kept := (keepsDirectories_erase isFile).trans
      (keepsDirectories_set (.file bytes) freeAfter)
    exact locate_of_keepsDirectories kept foundTarget
  · exact get?_set_same _ locationInside _
  · rw [get?_set _ locationInside, if_neg (Ne.symm differs), get?_erase _ scratchInside]
    simp
  · intro other notTarget notScratch
    rw [get?_set _ locationInside, if_neg notTarget, get?_erase _ scratchInside,
      if_neg notScratch, get?_set store scratchInside, if_neg notScratch]

/-- A replacement that failed has taken away what stood at the place of the temporary
file, or has done nothing at all. -/
theorem replace_eq_error {store after : Store} {temporary target : Path} {bytes : List UInt8}
    {failure : Failure}
    (failed : store.replace temporary target bytes = (.error failure, after)) :
    after = store ∨
      ∃ scratch, store.locate temporary = .ok scratch ∧ scratch ≠ [] ∧
        after = store.erase scratch := by
  unfold replace at failed
  cases wrote : store.write temporary bytes with
  | error refused =>
      simp only [wrote, Except.mapError, bind, Except.bind, Prod.mk.injEq] at failed
      obtain ⟨-, rfl⟩ := failed
      rcases discard_store store temporary refused with same | ⟨scratch, old, found, isFile, gone⟩
      · exact .inl same
      · have inside : scratch ≠ [] := by
          rintro rfl
          simp at isFile
        exact .inr ⟨scratch, found, inside, gone⟩
  | ok written =>
      obtain ⟨scratch, found, free, rfl⟩ := write_eq_ok wrote
      have inside := ne_nil_of_noDirectory free
      have cleared : ∀ refused, ((store.set scratch (.file bytes)).discard temporary refused).2 =
          store.erase scratch := by
        intro refused
        have again := locate_of_keepsDirectories (keepsDirectories_set (.file bytes) free) found
        have removed := remove_of_file again (get?_set_same store inside _)
        simp [discard, removed, erase_set]
      cases renamed : (store.set scratch (.file bytes)).rename temporary target with
      | ok moved => simp [wrote, renamed, Except.mapError, bind, Except.bind] at failed
      | error refused =>
          simp only [wrote, renamed, Except.mapError, bind, Except.bind, Prod.mk.injEq] at failed
          obtain ⟨-, rfl⟩ := failed
          exact .inr ⟨scratch, found, inside, cleared refused⟩

end Store

end Roster.Storage
