import Roster.Proofs.Source.Rereading
import Roster.Proofs.Yaml.EmptyDocument

/-!
# Reading empty documents

A file of empty lines and comments holds no document, and is read as an empty
configuration. A start marker among the lines makes a document of an empty scalar, for
which the reader does not provide: it is no mapping, and so it is refused.
-/

namespace Roster

open Roster.Storage (Path Store)

/-- A reader finds an empty document as it is in a file that holds it. -/
theorem HoldsText.readFileText_emptyDocument {store : Store} {path : Path}
    {document : Yaml.EmptyDocument} (holds : HoldsText store path document.text) :
    Roster.readFileText store path = .ok document.text := by
  have isPlain : ∀ c ∈ document.text, c ≠ '\r' ∧ c ≠ Text.Utf8.markCharacter := by
    refine document.forall_mem_text (by decide) fun c low high => ⟨?_, ?_⟩
    · rintro rfl
      exact absurd low (by decide)
    · rintro rfl
      exact absurd high (by decide)
  have noMark : document.text.head? ≠ some Text.Utf8.markCharacter := fun isHead =>
    (isPlain _ (List.mem_of_head? isHead)).2 rfl
  have noReturn : '\r' ∉ document.text := fun member => (isPlain _ member).1 rfl
  rw [holds.readFileText, withoutMark_eq_self noMark, Text.unifyNewlines_of_not_mem noReturn]

namespace Reader

variable {store : Store} {path : Path} {document : Yaml.EmptyDocument}

/-- Without a start marker, an empty document is read as an empty configuration, and there
is nothing to report. -/
theorem read_unmarked (holds : HoldsText store path document.text)
    (unmarked : document.isMarked = false) (version : Option Yaml.Version) :
    ((yamlFile path version).read store).1 = .ok { configuration := .empty, report := none } := by
  rw [read, readYamlFile_of_text holds.readFileText_emptyDocument, document.load_unmarked _ unmarked]
  rfl

/-- With a start marker, an empty document is refused, since it is no mapping. -/
theorem read_marked (holds : HoldsText store path document.text)
    (marked : document.isMarked = true) (version : Option Yaml.Version) :
    ((yamlFile path version).read store).1 = .error (.noMapping path) := by
  rw [read, readYamlFile_of_text holds.readFileText_emptyDocument, document.load_marked _ marked]
  rfl

/-- A file of an empty document is read as an empty configuration exactly if no line of it
is a start marker, whatever the reader has read before. -/
theorem read_emptyDocument_iff (holds : HoldsText store path document.text)
    (version : Option Yaml.Version) :
    (∃ reading, ((yamlFile path version).read store).1 = .ok reading ∧
        reading.configuration = .empty) ↔
      document.isMarked = false := by
  constructor
  · rintro ⟨reading, isRead, -⟩
    by_contra marked
    rw [read_marked holds (by simpa using marked)] at isRead
    cases isRead
  · intro unmarked
    exact ⟨_, read_unmarked holds unmarked version, rfl⟩

/-- A comment, an empty line, and a further comment. -/
def commentedDocument : Yaml.EmptyDocument where
  before := [.comment " nodes:".toList (by simp), .blank, .comment [] (by simp)]
  behind := none

theorem read_emptyDocument_commented :
    HoldsText (storeHolding "cluster.yaml" commentedDocument.text) (.ofString "cluster.yaml")
        commentedDocument.text ∧
      ∃ reading, ((ofYamlFile (.ofString "cluster.yaml")).read
          (storeHolding "cluster.yaml" commentedDocument.text)).1 = .ok reading ∧
        reading.configuration = .empty := by
  have holds : HoldsText (storeHolding "cluster.yaml" commentedDocument.text)
      (.ofString "cluster.yaml") commentedDocument.text := ⟨by decide +kernel, by decide +kernel⟩
  exact ⟨holds, (read_emptyDocument_iff holds none).2 rfl⟩

/-- Nothing but a start marker. -/
def markedDocument : Yaml.EmptyDocument where
  before := []
  behind := some []

/-- A start marker alone is refused. -/
theorem read_markedDocument :
    markedDocument.text = "---\n".toList ∧
      ¬∃ reading, ((ofYamlFile (.ofString "cluster.yaml")).read
        (storeHolding "cluster.yaml" markedDocument.text)).1 = .ok reading := by
  have holds : HoldsText (storeHolding "cluster.yaml" markedDocument.text)
      (.ofString "cluster.yaml") markedDocument.text := ⟨by decide +kernel, by decide +kernel⟩
  refine ⟨by decide +kernel, ?_⟩
  rintro ⟨reading, isRead⟩
  rw [ofYamlFile, read_marked holds rfl] at isRead
  cases isRead

end Reader

end Roster
