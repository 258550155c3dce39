import Roster.Proofs.Export.AllOrNothing
import Roster.Proofs.Source.FileText

/-!
# Reading what was written

A file that was written by an export holds the exported text, except for what all
readers do with any file: one byte order mark in front is dropped, and newlines
are unified.
-/

namespace Roster

open Roster.Storage (Path Store)

/-- A path without a NUL in the path of its temporary file has none itself. -/
theorem hasNul_of_temporary {target temporary : Path}
    (beside : temporaryPath? target = some temporary) (clean : temporary.hasNul = false) :
    target.hasNul = false := by
  obtain ⟨name, isLast, rfl⟩ := Option.map_eq_some_iff.1 beside
  have parts : target.components = target.components.dropLast ++ [name] :=
    (List.dropLast_append_getLast? name isLast).symm
  simp only [Path.hasNul, Path.withName, List.any_append, Bool.or_eq_false_iff,
    List.any_cons, List.any_nil, Bool.or_false, String.toList_append, List.contains_eq_mem,
    List.mem_append, decide_eq_false_iff_not, not_or] at clean
  rw [Path.hasNul, parts]
  simp only [List.any_append, List.any_cons, List.any_nil, Bool.or_false,
    List.contains_eq_mem, Bool.or_eq_false_iff, decide_eq_false_iff_not]
  exact ⟨clean.1, clean.2.1⟩

namespace Configuration

/-- A target that was written has no NUL in its path. -/
theorem hasNul_of_write {configuration : Configuration} {store : Store} {target : Path}
    {format : Datum} {record : LogRecord}
    (written : (configuration.write store target format).1 = .ok record) :
    target.hasNul = false := by
  rw [← wide_write] at written
  obtain ⟨content, temporary, bytes, -, beside, noNul, -⟩ :=
    WideConfiguration.exists_replace_of_write written
  exact hasNul_of_temporary beside noNul

/-- The text of a file that was written is the exported text without a byte order
mark in front and with newlines unified. -/
theorem readFileText_of_write {configuration : Configuration} {store : Store} {target : Path}
    {format : Datum} {record : LogRecord} {content : List Char}
    (written : (configuration.write store target format).1 = .ok record)
    (exported : configuration.exportAs format = .ok content) :
    readFileText (configuration.write store target format).2 target =
      .ok (Text.unifyNewlines (Text.Utf8.withoutMark content)) := by
  obtain ⟨content', location, scratch, exported', -, -, found, replaced⟩ := write_eq_ok written
  rw [exported] at exported'
  obtain rfl := Except.ok.inj exported'
  exact readFileText_of_file (hasNul_of_write written) found replaced.inPlace

end Configuration

end Roster
