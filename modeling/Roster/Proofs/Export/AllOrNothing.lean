import Roster.Proofs.Export.Wide
import Roster.Proofs.Storage.Replace

/-!
# Writing is all or nothing

Exporting to a file has two outcomes. The target holds the whole export and the
temporary file is gone; or the write is refused and every place is as it was, but
for the place of the temporary file, where nothing may be left.

There is one exception. Plain text with a half in it has no bytes, and this is met only when
the temporary file is open. The file stays where it is, and it is empty.

All this is said of stores, in which there are no links. A link in the place of the temporary
file would lead the write to another file.
-/

namespace Roster

open Roster.Storage (Path Store Location)
open Roster.Text (CodePoint)

/-- A place where a file stands or may be put, and a path that leads there. -/
structure IsFilePlace (store : Store) (path : Path) (location : Location) : Prop where
  noNul : path.hasNul = false
  leads : store.locate path = .ok location
  free : store.get? location ≠ some .directory

namespace Storage

/-- A place at which the temporary file of a target stands. -/
def Store.IsScratch (store : Store) (target : Path) (location : Location) : Prop :=
  ∃ temporary, temporaryPath? target = some temporary ∧ store.locate temporary = .ok location

/-- The name of a temporary file is another one than that of its target. -/
theorem append_temporarySuffix_ne (name : String) : name ++ temporarySuffix ≠ name := by
  intro same
  have lengths := congrArg String.length same
  rw [String.length_append] at lengths
  have positive : temporarySuffix.length = 13 := rfl
  omega

/-- The name of a temporary file leads nowhere back. -/
theorem append_temporarySuffix_ne_dots (name : String) : name ++ temporarySuffix ≠ ".." := by
  intro same
  have lengths := congrArg String.length same
  rw [String.length_append] at lengths
  have positive : temporarySuffix.length = 13 := rfl
  have dots : "..".length = 2 := rfl
  omega

/-- Behind its directory, a path with a proper name leads to that name there. -/
theorem Store.walk_name {store : Store} {directory : List String} {name : String}
    {location : Location} (forward : name ≠ "..")
    (found : store.walk [] (directory ++ [name]) = .ok location) :
    ∃ there, store.walk [] directory = .ok there ∧ location = there ++ [name] := by
  rw [walk_append] at found
  obtain ⟨there, walked, entered⟩ := bind_eq_ok.1 found
  refine ⟨there, walked, ?_⟩
  simp only [walk] at entered
  split at entered
  · cases entered
  · cases entered
  · have isForward : (name == "..") = false := by simpa using forward
    rw [isForward] at entered
    simp only [Bool.false_eq_true, if_false] at entered
    split at entered
    · cases entered
    · exact (Except.ok.inj entered).symm

/-- A path that leads somewhere is walked there. -/
theorem Store.walk_of_locate {store : Store} {path : Path} {location : Location}
    (found : store.locate path = .ok location) : store.walk [] path.components = .ok location := by
  unfold locate at found
  split at found
  · cases found
  · exact found

/-- A target and its temporary file stand at different places. -/
theorem Store.locate_temporary_ne {store : Store} {target temporary : Path} {location : Location}
    (beside : temporaryPath? target = some temporary)
    (found : store.locate target = .ok location) (isName : target.name? ≠ some "..") :
    store.locate temporary ≠ .ok location := by
  intro foundTemporary
  obtain ⟨name, isLast, rfl⟩ := Option.map_eq_some_iff.1 beside
  have parts : target.components = target.components.dropLast ++ [name] :=
    (List.dropLast_append_getLast? name isLast).symm
  have forward : name ≠ ".." := by
    rintro rfl
    exact isName isLast
  have walked := walk_of_locate found
  rw [parts] at walked
  obtain ⟨there, reached, same⟩ := walk_name forward walked
  obtain ⟨thereToo, reachedToo, sameToo⟩ :=
    walk_name (append_temporarySuffix_ne_dots name) (walk_of_locate foundTemporary)
  rw [reached] at reachedToo
  obtain rfl := Except.ok.inj reachedToo
  rw [same] at sameToo
  have names : name = name ++ temporarySuffix := by simpa using sameToo
  exact append_temporarySuffix_ne name names.symm

end Storage

namespace WideConfiguration

/-- All that a write can do, with what comes of it. -/
inductive Writes (configuration : WideConfiguration) (store : Store) (target : Path)
    (format : Datum) : Except WriteError LogRecord × Store → Prop where
  | refused {cause : ExportError} (refused : configuration.exportAs format = .error cause) :
      Writes configuration store target format (.error (.refused cause), store)
  | nameless {content : List CodePoint} (exported : configuration.exportAs format = .ok content)
      (noName : temporaryPath? target = none) :
      Writes configuration store target format (.error (.emptyName target), store)
  | nul {content : List CodePoint} {temporary : Path}
      (exported : configuration.exportAs format = .ok content)
      (beside : temporaryPath? target = some temporary) (hasNul : temporary.hasNul = true) :
      Writes configuration store target format (.error .nulInPath, store)
  | stranded {content : List CodePoint} {temporary : Path} {fault : Text.Utf8.EncodingFault}
      {opened : Store} (exported : configuration.exportAs format = .ok content)
      (beside : temporaryPath? target = some temporary) (noNul : temporary.hasNul = false)
      (stopped : Text.Utf8.encodeCodes content = .error fault)
      (opens : store.write temporary [] = .ok opened) :
      Writes configuration store target format (.error (.unencodable fault), opened)
  | unopened {temporary : Path} {failure : Storage.Failure}
      (beside : temporaryPath? target = some temporary) :
      Writes configuration store target format
        (.error (.storage (store.discard temporary failure).1),
          (store.discard temporary failure).2)
  | replaced {content : List CodePoint} {temporary : Path} {bytes : List UInt8} {after : Store}
      (exported : configuration.exportAs format = .ok content)
      (beside : temporaryPath? target = some temporary) (noNul : temporary.hasNul = false)
      (encoded : Text.Utf8.encodeCodes content = .ok bytes)
      (done : store.replace temporary target bytes = (.ok (), after)) :
      Writes configuration store target format
        (.ok (writtenRecord configuration.size target format), after)
  | unreplaced {temporary : Path} {bytes : List UInt8} {failure : Storage.Failure} {after : Store}
      (beside : temporaryPath? target = some temporary)
      (failed : store.replace temporary target bytes = (.error failure, after)) :
      Writes configuration store target format (.error (.storage failure), after)

variable {configuration : WideConfiguration} {store : Store} {target : Path} {format : Datum}

theorem writes (configuration : WideConfiguration) (store : Store) (target : Path)
    (format : Datum) :
    configuration.Writes store target format (configuration.write store target format) := by
  cases exported : configuration.exportAs format with
  | error cause =>
      simp only [write, exported]
      exact .refused exported
  | ok content =>
      cases beside : temporaryPath? target with
      | none =>
          simp only [write, exported, beside]
          exact .nameless exported beside
      | some temporary =>
          by_cases nul : temporary.hasNul = true
          · simp only [write, exported, beside, nul, if_true]
            exact .nul exported beside nul
          · have noNul := Bool.eq_false_iff.2 nul
            cases encoded : Text.Utf8.encodeCodes content with
            | error fault =>
                cases opens : store.write temporary [] with
                | ok opened =>
                    simp only [write, exported, beside, noNul, encoded, Store.openFor, opens]
                    exact .stranded exported beside noNul encoded opens
                | error failure =>
                    simp only [write, exported, beside, noNul, encoded, Store.openFor, opens]
                    exact .unopened beside
            | ok bytes =>
                rcases done : store.replace temporary target bytes with
                  ⟨failure | ⟨⟨⟩⟩, after⟩
                · simp only [write, exported, beside, noNul, encoded, done]
                  exact .unreplaced beside done
                · simp only [write, exported, beside, noNul, encoded, done]
                  exact .replaced exported beside noNul encoded done

/-- A write that came through has replaced the target. -/
theorem exists_replace_of_write {record : LogRecord}
    (written : (configuration.write store target format).1 = .ok record) :
    ∃ content temporary bytes, configuration.exportAs format = .ok content ∧
      temporaryPath? target = some temporary ∧ temporary.hasNul = false ∧
      Text.Utf8.encodeCodes content = .ok bytes ∧
      store.replace temporary target bytes =
        (.ok (), (configuration.write store target format).2) ∧
      record = writtenRecord configuration.size target format := by
  have writes := configuration.writes store target format
  generalize configuration.write store target format = outcome at writes written ⊢
  cases writes <;> cases written
  rename_i exported beside noNul encoded done
  exact ⟨_, _, _, exported, beside, noNul, encoded, done, rfl⟩

/-- The target holds the whole export, nothing stands at the place of the temporary file, and
all other places are as they were. -/
def Completes (configuration : WideConfiguration) (store : Store) (target : Path)
    (format : Datum) : Prop :=
  ∃ record content bytes location scratch,
    (configuration.write store target format).1 = .ok record ∧
    configuration.exportAs format = .ok content ∧ Text.Utf8.encodeCodes content = .ok bytes ∧
    store.locate target = .ok location ∧ store.IsScratch target scratch ∧
    (configuration.write store target format).2.locate target = .ok location ∧
    store.Replaced (configuration.write store target format).2 location scratch bytes

/-- The write is refused, and every place is as it was, but that nothing may be left at the
place of the temporary file. -/
def FailsCleanly (configuration : WideConfiguration) (store : Store) (target : Path)
    (format : Datum) : Prop :=
  ∃ error, (configuration.write store target format).1 = .error error ∧
    ∀ location,
      (configuration.write store target format).2.get? location = store.get? location ∨
        (store.IsScratch target location ∧
          (configuration.write store target format).2.get? location = none)

/-- The temporary file is opened at a place, for plain text with a half in it. -/
structure StrandsAt (configuration : WideConfiguration) (store : Store) (target : Path)
    (format : Datum) (scratch : Location) : Prop where
  isText : Format.ofDatum? format = some .text
  accepted : ∃ content, configuration.toText = .ok content
  halved : configuration.isHalved = true
  opens : ∃ temporary, temporaryPath? target = some temporary ∧
    IsFilePlace store temporary scratch

theorem completes_of_write {record : LogRecord}
    (written : (configuration.write store target format).1 = .ok record) :
    configuration.Completes store target format := by
  obtain ⟨content, temporary, bytes, exported, beside, -, encoded, done, -⟩ :=
    exists_replace_of_write written
  obtain ⟨location, scratch, found, foundScratch, foundAfter, replaced⟩ :=
    Store.replaced_of_replace
      (fun _ found isName => Store.locate_temporary_ne beside found isName) done
  exact ⟨record, content, bytes, location, scratch, written, exported, encoded, found,
    ⟨temporary, beside, foundScratch⟩, foundAfter, replaced⟩

/-- A text with a half in it has no bytes, so an empty file is left. -/
theorem write_of_strandsAt {scratch : Location}
    (strands : configuration.StrandsAt store target format scratch) :
    (∃ fault, (configuration.write store target format).1 = .error (.unencodable fault)) ∧
      (configuration.write store target format).2 = store.set scratch (.file []) := by
  obtain ⟨isText, accepted, isHalved, temporary, beside, noNul, leads, free⟩ := strands
  obtain ⟨content, exported, halved⟩ := exportAs_halved_iff.2 ⟨isText, accepted, isHalved⟩
  have opens : store.write temporary [] = .ok (store.set scratch (.file [])) :=
    Store.write_of_free leads free
  cases stopped : Text.Utf8.encodeCodes content with
  | ok bytes =>
      rw [Text.Utf8.exists_encodeCodes_iff.1 ⟨bytes, stopped⟩] at halved
      cases halved
  | error fault =>
      simp [write, exported, beside, noNul, stopped, Store.openFor, opens]

/-- All other places are then as they were. -/
theorem get?_of_strandsAt {scratch : Location}
    (strands : configuration.StrandsAt store target format scratch) (location : Location) :
    (configuration.write store target format).2.get? location =
      if location = scratch then some (.file []) else store.get? location := by
  rw [(write_of_strandsAt strands).2]
  obtain ⟨temporary, -, isPlace⟩ := strands.opens
  exact Store.get?_set store (Store.ne_nil_of_noDirectory isPlace.free) _ location

/-- A write that was refused left its temporary file, or failed to replace its target, or did
not come so far. -/
theorem write_eq_error {error : WriteError}
    (refused : (configuration.write store target format).1 = .error error) :
    (configuration.write store target format).2 = store ∨
      (∃ scratch, configuration.StrandsAt store target format scratch) ∨
      ∃ scratch, store.IsScratch target scratch ∧ scratch ≠ [] ∧
        (configuration.write store target format).2 = store.erase scratch := by
  have writes := configuration.writes store target format
  generalize configuration.write store target format = outcome at writes refused ⊢
  cases writes with
  | refused _ => exact .inl rfl
  | nameless _ _ => exact .inl rfl
  | nul _ _ _ => exact .inl rfl
  | @stranded content temporary _ _ exported beside noNul stopped opens =>
      obtain ⟨scratch, leads, free, -⟩ := Store.write_eq_ok opens
      have halved : content.any CodePoint.isHalf = true := by
        by_contra noHalf
        obtain ⟨bytes, encoded⟩ :=
          Text.Utf8.exists_encodeCodes_iff.2 (Bool.eq_false_iff.2 noHalf)
        cases stopped.symm.trans encoded
      obtain ⟨isText, accepted, isHalved⟩ := exportAs_halved_iff.1 ⟨content, exported, halved⟩
      exact .inr (.inl ⟨scratch, isText, accepted, isHalved, temporary, beside, noNul, leads,
        free⟩)
  | unopened beside =>
      rcases Store.discard_store store _ _ with same | ⟨scratch, bytes, found, isFile, gone⟩
      · exact .inl same
      · refine .inr (.inr ⟨scratch, ⟨_, beside, found⟩, ?_, gone⟩)
        rintro rfl
        simp at isFile
  | replaced _ _ _ _ _ => cases refused
  | unreplaced beside failed =>
      rcases Store.replace_eq_error failed with same | ⟨scratch, found, inside, gone⟩
      · exact .inl same
      · exact .inr (.inr ⟨scratch, ⟨_, beside, found⟩, inside, gone⟩)

/-- Unless its temporary file is left, a write that was refused has changed nothing, or left
nothing at the place of that file and changed nothing else. -/
theorem get?_of_write_error {error : WriteError}
    (refused : (configuration.write store target format).1 = .error error)
    (noStrand : ∀ scratch, ¬configuration.StrandsAt store target format scratch)
    (location : Location) :
    (configuration.write store target format).2.get? location = store.get? location ∨
      (store.IsScratch target location ∧
        (configuration.write store target format).2.get? location = none) := by
  rcases write_eq_error refused with same | ⟨scratch, strands⟩ | ⟨scratch, isScratch, inside, gone⟩
  · exact .inl (by rw [same])
  · exact absurd strands (noStrand scratch)
  · rw [gone, Store.get?_erase store inside]
    split
    · rename_i here
      exact .inr ⟨here ▸ isScratch, rfl⟩
    · exact .inl rfl

/-- Where nothing stands at the place of the temporary file, a write that was refused leaves
the store as it was, unless that file is left. -/
theorem write_store_of_error {error : WriteError}
    (vacant : ∀ scratch, store.IsScratch target scratch → store.get? scratch = none)
    (noStrand : ∀ scratch, ¬configuration.StrandsAt store target format scratch)
    (refused : (configuration.write store target format).1 = .error error) :
    (configuration.write store target format).2 = store := by
  rcases write_eq_error refused with same | ⟨scratch, strands⟩ | ⟨scratch, isScratch, -, gone⟩
  · exact same
  · exact absurd strands (noStrand scratch)
  · rw [gone, Store.erase_of_none (vacant scratch isScratch)]

/-- A write is all or nothing, and never both, exactly if no temporary file is left: none is
opened for plain text with a half in it, or an empty file stood there already. If one is
opened, the write is refused and the file is left without content, and all other places are as
they were. -/
theorem write_all_or_nothing_iff (configuration : WideConfiguration) (store : Store)
    (target : Path) (format : Datum) :
    (configuration.Completes store target format ∨
        configuration.FailsCleanly store target format ↔
      ∀ scratch, configuration.StrandsAt store target format scratch →
        store.get? scratch = some (.file [])) ∧
    ¬(configuration.Completes store target format ∧
      configuration.FailsCleanly store target format) ∧
    ∀ scratch, configuration.StrandsAt store target format scratch →
      store.IsScratch target scratch ∧
      (∃ fault, (configuration.write store target format).1 = .error (.unencodable fault)) ∧
      ∀ location, (configuration.write store target format).2.get? location =
        if location = scratch then some (.file []) else store.get? location := by
  refine ⟨⟨fun clean scratch strands => ?_, fun empty => ?_⟩, ?_, fun scratch strands => ?_⟩
  · obtain ⟨fault, failed⟩ := (write_of_strandsAt strands).1
    rcases clean with ⟨record, -, -, -, -, written, -⟩ | ⟨error, -, places⟩
    · cases failed.symm.trans written
    · have found := get?_of_strandsAt strands scratch
      rw [if_pos rfl] at found
      rcases places scratch with same | ⟨-, gone⟩
      · exact same.symm.trans found
      · cases gone.symm.trans found
  · cases outcome : (configuration.write store target format).1 with
    | ok record => exact .inl (completes_of_write outcome)
    | error error =>
        refine .inr ⟨error, outcome, fun location => ?_⟩
        by_cases stranding : ∃ scratch, configuration.StrandsAt store target format scratch
        · obtain ⟨scratch, strands⟩ := stranding
          rw [get?_of_strandsAt strands]
          split
          · rename_i here
            exact .inl (here ▸ (empty scratch strands).symm)
          · exact .inl rfl
        · exact get?_of_write_error outcome (not_exists.1 stranding) location
  · rintro ⟨⟨record, -, -, -, -, written, -⟩, error, failed, -⟩
    cases written.symm.trans failed
  · obtain ⟨temporary, beside, isPlace⟩ := strands.opens
    exact ⟨⟨temporary, beside, isPlace.leads⟩, (write_of_strandsAt strands).1,
      get?_of_strandsAt strands⟩

/-- A descriptor that ends in a half. -/
def halvedName : Text.Wide :=
  .halved [.char 'a', .half { code := 0xD800, isHalf := by decide }] rfl

/-- The configuration of this descriptor. -/
def halvedEnd : WideConfiguration := { descriptors := [halvedName] }

/-- Writing it as plain text is neither all nor nothing: the write is refused, and a file is
left that was not there. -/
theorem write_leaves_temporary_file :
    ¬(halvedEnd.Completes .empty (.ofString "out") (.text "text") ∨
      halvedEnd.FailsCleanly .empty (.ofString "out") (.text "text")) := by
  rintro (⟨record, -, -, -, -, written, -⟩ | ⟨error, -, places⟩)
  · have refused : (halvedEnd.write .empty (.ofString "out") (.text "text")).1.toOption = none := by
      decide +kernel
    rw [written] at refused
    cases refused
  · have found : (halvedEnd.write .empty (.ofString "out") (.text "text")).2.get?
        ["out.nodeconf.tmp"] = some (.file []) := by decide +kernel
    have absent : Store.empty.get? ["out.nodeconf.tmp"] = none := by decide +kernel
    rcases places ["out.nodeconf.tmp"] with same | ⟨-, gone⟩
    · cases found.symm.trans (same.trans absent)
    · cases found.symm.trans gone

end WideConfiguration

namespace Configuration

variable {configuration : Configuration} {store : Store} {target : Path} {format : Datum}

/-- A configuration has no half in any export, so it leaves no temporary file. -/
theorem not_strandsAt (scratch : Location) :
    ¬configuration.wide.StrandsAt store target format scratch := by
  intro strands
  cases strands.halved.symm.trans configuration.isHalved_wide

/-- A write that came through has replaced the target by the whole export. -/
theorem write_eq_ok {record : LogRecord}
    (written : (configuration.write store target format).1 = .ok record) :
    ∃ content location scratch, configuration.exportAs format = .ok content ∧
      store.locate target = .ok location ∧ store.IsScratch target scratch ∧
      (configuration.write store target format).2.locate target = .ok location ∧
      store.Replaced (configuration.write store target format).2 location scratch
        (Text.Utf8.encode content) := by
  rw [← wide_write] at written ⊢
  obtain ⟨_, content, bytes, location, scratch, -, exported, encoded, others⟩ :=
    WideConfiguration.completes_of_write written
  rw [wide_exportAs] at exported
  obtain ⟨text, isText, rfl⟩ := map_eq_ok.1 exported
  obtain rfl := Except.ok.inj ((Text.Utf8.encodeCodes_chars text).symm.trans encoded)
  exact ⟨text, location, scratch, isText, others⟩

/-- What a write that came through reports. -/
theorem record_of_write {record : LogRecord}
    (written : (configuration.write store target format).1 = .ok record) :
    record = writtenRecord configuration.size target format := by
  rw [← wide_write] at written
  obtain ⟨-, -, -, -, -, -, -, -, reported⟩ :=
    WideConfiguration.exists_replace_of_write written
  rw [reported, size_wide]

/-- A write that was refused has changed nothing, or left nothing at the place of
the temporary file and changed nothing else. -/
theorem get?_of_write_error {error : WriteError}
    (refused : (configuration.write store target format).1 = .error error)
    (location : Location) :
    (configuration.write store target format).2.get? location = store.get? location ∨
      (store.IsScratch target location ∧
        (configuration.write store target format).2.get? location = none) := by
  rw [← wide_write] at refused ⊢
  exact WideConfiguration.get?_of_write_error refused not_strandsAt location

end Configuration

end Roster
