import Roster.Proofs.Source.FileText
import Roster.Source.Reader

/-!
# Forms of a file

The same text can be stored with any of the three customary newlines, and with a byte
order mark in front or without. A reader takes away both before it looks at anything
else, so that descriptors, errors and the places of errors are the same for every form.
-/

namespace Roster

open Roster.Storage (Path Store)

namespace Text

/-- How newlines are written in a file. -/
inductive NewlineStyle where
  | lineFeed
  | carriageReturn
  | both
  deriving DecidableEq, Repr

namespace NewlineStyle

/-- A newline as it is written. -/
def newline : NewlineStyle → List Char
  | lineFeed => ['\n']
  | carriageReturn => ['\r']
  | both => ['\r', '\n']

/-- A text with each of its newlines written in a style. -/
def write (style : NewlineStyle) (text : List Char) : List Char :=
  text.flatMap fun c => if c = '\n' then style.newline else [c]

@[simp]
theorem write_nil (style : NewlineStyle) : style.write [] = [] := rfl

theorem write_newline (style : NewlineStyle) (rest : List Char) :
    style.write ('\n' :: rest) = style.newline ++ style.write rest := rfl

theorem write_other (style : NewlineStyle) {c : Char} (other : c ≠ '\n') (rest : List Char) :
    style.write (c :: rest) = c :: style.write rest := by
  simp [write, other]

/-- No newline is written as a byte order mark. -/
theorem head_write (style : NewlineStyle) {text : List Char}
    (noMark : text.head? ≠ some Utf8.markCharacter) :
    (style.write text).head? ≠ some Utf8.markCharacter := by
  cases text with
  | nil => exact noMark
  | cons c rest =>
      by_cases isNewline : c = '\n'
      · subst isNewline
        rw [write_newline]
        cases style <;> simp [newline, Utf8.markCharacter]
      · rw [write_other style isNewline]
        exact noMark

/-- A text whose newlines are written as carriage returns does not begin with a newline,
so that a return in front of it stands alone. -/
theorem head_write_carriageReturn (text : List Char) :
    (carriageReturn.write text).head? ≠ some '\n' := by
  cases text with
  | nil => nofun
  | cons c rest =>
      by_cases isNewline : c = '\n'
      · subst isNewline
        simp [write_newline, newline]
      · rw [write_other _ isNewline]
        simpa using isNewline

end NewlineStyle

/-- A character other than a carriage return is left alone. -/
theorem unifyNewlines_cons {c : Char} (other : c ≠ '\r') (rest : List Char) :
    unifyNewlines (c :: rest) = c :: unifyNewlines rest := by
  rw [unifyNewlines, if_neg other]
  exact fun _ isReturn _ => absurd isReturn other

/-- A carriage return without a newline behind stands for a newline. -/
theorem unifyNewlines_return {rest : List Char} (alone : rest.head? ≠ some '\n') :
    unifyNewlines ('\r' :: rest) = '\n' :: unifyNewlines rest := by
  rw [unifyNewlines, if_pos rfl]
  rintro others - rfl
  exact alone rfl

/-- Unifying newlines takes back how they are written. -/
theorem unifyNewlines_write (style : NewlineStyle) {text : List Char} (absent : '\r' ∉ text) :
    unifyNewlines (style.write text) = text := by
  induction text with
  | nil => rfl
  | cons c rest inductionHypothesis =>
      obtain ⟨other, absentBehind⟩ := not_or.1 (List.mem_cons.not.1 absent)
      have behind := inductionHypothesis absentBehind
      by_cases isNewline : c = '\n'
      · subst isNewline
        rw [NewlineStyle.write_newline]
        cases style <;>
          simp only [NewlineStyle.newline, List.cons_append, List.nil_append]
        case lineFeed => rw [unifyNewlines_cons (by decide), behind]
        case both => rw [unifyNewlines, behind]
        case carriageReturn =>
          rw [unifyNewlines_return (NewlineStyle.head_write_carriageReturn rest), behind]
      · rw [style.write_other isNewline, unifyNewlines_cons (Ne.symm other), behind]

end Text

/-- A form in which a text is stored in a file. -/
structure FileForm where
  marked : Bool
  style : Text.NewlineStyle
  deriving DecidableEq, Repr

namespace FileForm

/-- The bytes of a file that stores a text in a form. -/
def bytes (form : FileForm) (text : List Char) : List UInt8 :=
  (if form.marked then Text.Utf8.byteOrderMark else []) ++
    Text.Utf8.encode (form.style.write text)

/-- The byte order mark is the encoding of a character, which is taken away in front. -/
theorem read_bytes (form : FileForm) {text : List Char}
    (noMark : text.head? ≠ some Text.Utf8.markCharacter) :
    Text.Utf8.read (form.bytes text) = .ok (form.style.write text) := by
  obtain ⟨marked, style⟩ := form
  cases marked with
  | false =>
      have whole := withoutMark_eq_self (style.head_write noMark)
      exact (Text.Utf8.read_encode _).trans (by rw [whole])
  | true =>
      have sameBytes : bytes ⟨true, style⟩ text =
          Text.Utf8.encode (Text.Utf8.markCharacter :: style.write text) := rfl
      rw [sameBytes, Text.Utf8.read_encode, Text.Utf8.withoutMark, if_pos rfl]

/-- Whatever the form in which a text is stored, the text is found again. -/
theorem readFileText_bytes (form : FileForm) {text : List Char} (noReturn : '\r' ∉ text)
    (noMark : text.head? ≠ some Text.Utf8.markCharacter) {store : Store} {path : Path}
    (stored : store.read path = .ok (form.bytes text)) :
    readFileText store path = if path.hasNul then .error .nulInPath else .ok text := by
  cases clean : path.hasNul with
  | true => simp [readFileText, clean]
  | false =>
      simp [readFileText, clean, stored, form.read_bytes noMark, Text.unifyNewlines_write _ noReturn,
        Except.mapError, bind, Except.bind, pure, Except.pure]

end FileForm

namespace Reader

/-- Where the same text is found, a plain file is read alike. -/
theorem read_plainFile_congr {left right : Store} {path : Path}
    (same : readFileText left path = readFileText right path) :
    (plainFile path).read left = (plainFile path).read right := by
  simp only [read, readPlainFile, same]

/-- Where the same text is found, a YAML file is read alike, and the same version is in
force afterwards. -/
theorem read_yamlFile_congr {left right : Store} {path : Path}
    (same : readFileText left path = readFileText right path) (version : Option Yaml.Version) :
    (yamlFile path version).read left = (yamlFile path version).read right := by
  simp only [read, readYamlFile, same]

/-- The forms in which a text is stored make no difference to any reader of files: the
configuration is the same, or the error and its place, and so is what a reader of YAML
files remembers. -/
theorem read_fileForm_alike {text : List Char} (noReturn : '\r' ∉ text)
    (noMark : text.head? ≠ some Text.Utf8.markCharacter) {path : Path} {left right : Store}
    {leftForm rightForm : FileForm} (inLeft : left.read path = .ok (leftForm.bytes text))
    (inRight : right.read path = .ok (rightForm.bytes text)) :
    (plainFile path).read left = (plainFile path).read right ∧
      ∀ version, (yamlFile path version).read left = (yamlFile path version).read right := by
  have same : readFileText left path = readFileText right path :=
    (leftForm.readFileText_bytes noReturn noMark inLeft).trans
      (rightForm.readFileText_bytes noReturn noMark inRight).symm
  exact ⟨read_plainFile_congr same, read_yamlFile_congr same⟩

/-- A document with a comment and a block scalar, and with an error in its last line. -/
def faultyText : List Char := "# a\nnodes: |\n  b\n  c\n]\n".toList

/-- The store with nothing but a file that stores this text in a form. -/
def storeOfForm (form : FileForm) : Store :=
  Store.empty.set ["cluster.yaml"] (.file (form.bytes faultyText))

theorem read_fileForm_alike_faulty :
    '\r' ∉ faultyText ∧ faultyText.head? ≠ some Text.Utf8.markCharacter ∧
      (plainFile (.ofString "cluster.yaml")).read (storeOfForm ⟨true, .both⟩) =
        (plainFile (.ofString "cluster.yaml")).read (storeOfForm ⟨false, .carriageReturn⟩) ∧
      (yamlFile (.ofString "cluster.yaml") none).read (storeOfForm ⟨true, .both⟩) =
        (yamlFile (.ofString "cluster.yaml") none).read
          (storeOfForm ⟨false, .carriageReturn⟩) := by
  have noReturn : '\r' ∉ faultyText := by decide +kernel
  have noMark : faultyText.head? ≠ some Text.Utf8.markCharacter := by decide +kernel
  have marked : (storeOfForm ⟨true, .both⟩).read (.ofString "cluster.yaml") =
      .ok (FileForm.bytes ⟨true, .both⟩ faultyText) := by decide +kernel
  have unmarked : (storeOfForm ⟨false, .carriageReturn⟩).read (.ofString "cluster.yaml") =
      .ok (FileForm.bytes ⟨false, .carriageReturn⟩ faultyText) := by decide +kernel
  have alike := read_fileForm_alike noReturn noMark marked unmarked
  exact ⟨noReturn, noMark, alike.1, alike.2 none⟩

end Reader

end Roster
