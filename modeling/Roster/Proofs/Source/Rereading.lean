import Mathlib
import Roster.Proofs.Source.FileText
import Roster.Proofs.Yaml.VersionInForce
import Roster.Source.Reader

/-!
# Reading again

The outcome of a read depends on the reads before it only through the version they
leave in force. The rules of version 1.1 show: as long as they are not in force, a
reader reads like one that has read nothing yet.
-/

namespace Roster

open Roster.Storage (Path Store Location)
open Roster.Yaml (Version)

namespace Reader

/-- The version that a reader remembers. -/
def version? : Reader → Option Version
  | .yamlFile _ version => version
  | _ => none

/-- A reader after it has read once from each of some stores. -/
def after (reader : Reader) (history : List Store) : Reader :=
  history.foldl (fun reader store => (reader.read store).2) reader

/-- A reader keeps its path. -/
theorem after_yamlFile (path : Path) (version : Option Version) (history : List Store) :
    (yamlFile path version).after history =
      yamlFile path ((yamlFile path version).after history).version? := by
  induction history generalizing version with
  | nil => rfl
  | cons store others inductionHypothesis => exact inductionHypothesis _

end Reader

/-- A file that cannot be read as a text leaves the version in force. -/
theorem readYamlFile_of_error {store : Store} {path : Path} {error : ReadError}
    (unreadable : readFileText store path = .error error) (version : Option Version) :
    readYamlFile version store path = (.error error, version) := by
  simp only [readYamlFile, unreadable]

theorem readYamlFile_of_text {store : Store} {path : Path} {text : List Char}
    (readable : readFileText store path = .ok text) (version : Option Version) :
    readYamlFile version store path =
      ((Yaml.load version text).1.mapError (ReadError.yaml text) >>= readDocument path,
        (Yaml.load version text).2) := by
  simp only [readYamlFile, readable]

/-- Under versions that stand for the same rules, a file is read alike. -/
theorem readYamlFile_alike {left right : Option Version}
    (same : left.getD .v12 = right.getD .v12) (store : Store) (path : Path) :
    (readYamlFile left store path).1 = (readYamlFile right store path).1 := by
  cases read : readFileText store path with
  | error error => rw [readYamlFile_of_error read, readYamlFile_of_error read]
  | ok text =>
      rw [readYamlFile_of_text read, readYamlFile_of_text read, (Yaml.load_alike same text).1]

/-- A document whose scalar has a question mark inside a flow collection, which the
rules of version 1.1 refuse. -/
def tellingText : List Char := "nodes: [d?e]".toList

theorem load_tellingText_v11 : ∃ error, (Yaml.load (some .v11) tellingText).1 = .error error := by
  refine ⟨.grammatical
    { context := some .flowSequence, since := some { index := 7, line := 0, column := 7 }
      cause := .noFlowSequenceEnd .key, place := { index := 9, line := 0, column := 9 } }, ?_⟩
  cbv

theorem load_tellingText : (Yaml.load none tellingText).1 =
    .ok (some (.mapping [(.text nodesKey, .sequence [.text "d?e"])])) := by
  cbv

/-- The two versions read the same file differently. -/
theorem readYamlFile_v11_ne {store : Store} {path : Path}
    (readable : readFileText store path = .ok tellingText) :
    (readYamlFile (some .v11) store path).1 ≠ (readYamlFile none store path).1 := by
  obtain ⟨error, refused⟩ := load_tellingText_v11
  rw [readYamlFile_of_text readable, readYamlFile_of_text readable, refused, load_tellingText]
  intro same
  cases same

namespace Reader

/-- Only a file that can be read as a text changes what a reader remembers. -/
theorem exists_readable_of_version_ne {path : Path} {version : Option Version}
    {history : List Store} (changed : ((yamlFile path version).after history).version? ≠ version) :
    ∃ store text, readFileText store path = .ok text := by
  induction history generalizing version with
  | nil => exact absurd rfl changed
  | cons store others inductionHypothesis =>
      cases read : readFileText store path with
      | ok text => exact ⟨store, text, read⟩
      | error error =>
          have unchanged : ((yamlFile path version).read store).2 = yamlFile path version := by
            rw [Reader.read, readYamlFile_of_error read]
          rw [after, List.foldl_cons, unchanged] at changed
          exact inductionHypothesis changed

/-- A reader of a YAML file reads like one that has read nothing yet, whatever it
reads next, exactly if its earlier reads did not leave version 1.1 in force. -/
theorem read_after_iff (path : Path) (history : List Store) :
    (∀ store, (((ofYamlFile path).after history).read store).1 =
        ((ofYamlFile path).read store).1) ↔
      ((ofYamlFile path).after history).version? ≠ some .v11 := by
  have kept := after_yamlFile path none history
  rw [ofYamlFile]
  constructor
  · intro alike remembered
    rw [remembered] at kept
    obtain ⟨store, text, readable⟩ := exists_readable_of_version_ne
      (by rw [remembered]; simp)
    obtain ⟨replaced, found⟩ := exists_readFileText readable tellingText
    have same := alike replaced
    rw [kept] at same
    exact readYamlFile_v11_ne found same
  · intro forgotten store
    rw [kept]
    have sameRules : ((yamlFile path none).after history).version?.getD .v12 =
        (none : Option Version).getD .v12 := by
      cases remembered : ((yamlFile path none).after history).version? with
      | none => rfl
      | some version =>
          cases version with
          | v11 => exact absurd remembered forgotten
          | v12 => rfl
    exact readYamlFile_alike sameRules store path

/-- A document that asks for version 1.1. -/
def directiveText : List Char := "%YAML 1.1\n---\nnodes: [a]\n".toList

/-- The store with nothing but a file of a text. -/
def storeOf (text : List Char) : Store :=
  Store.empty.set ["c.yaml"] (.file (Text.Utf8.encode text))

theorem readFileText_storeOf (text : List Char) :
    readFileText (storeOf text) (.ofString "c.yaml") =
      .ok (Text.unifyNewlines (Text.Utf8.withoutMark text)) :=
  have located : Store.empty.locate (.ofString "c.yaml") = .ok ["c.yaml"] := by decide +kernel
  have kept : Store.empty.KeepsDirectories (storeOf text) :=
    Store.keepsDirectories_set _ (by decide)
  readFileText_of_file (by decide +kernel) (Store.locate_of_keepsDirectories kept located)
    (Store.get?_set_same _ (List.cons_ne_nil _ _) _)

theorem load_directiveText : (Yaml.load none directiveText).2 = some .v11 := by
  cbv

/-- A reader that has met a directive refuses a document that a new one reads. -/
theorem read_after_directive_ne :
    (((ofYamlFile (.ofString "c.yaml")).after [storeOf directiveText]).read
        (storeOf tellingText)).1 ≠
      ((ofYamlFile (.ofString "c.yaml")).read (storeOf tellingText)).1 := by
  have directiveRead : (ofYamlFile (.ofString "c.yaml")).after [storeOf directiveText] =
      yamlFile (.ofString "c.yaml") (some .v11) := by
    rw [after, List.foldl_cons, List.foldl_nil, ofYamlFile, Reader.read,
      readYamlFile_of_text (readFileText_storeOf directiveText)]
    exact congrArg (yamlFile _) load_directiveText
  rw [directiveRead]
  exact readYamlFile_v11_ne (readFileText_storeOf tellingText)

end Reader

end Roster
