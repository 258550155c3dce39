import Mathlib.Data.List.Infix
import Roster.Proofs.Terminal.Legible

/-!
# Text that may hold emoji codes

Before a piece of text is shown, the backslashes in front of its brackets are taken away and
its emoji codes give way to pictures. The piece shows as it is exactly if there is neither: at
the first backslash or code of this kind, something else shows at its place, whatever follows.
-/

namespace Roster.Terminal

open Text (isBlank withoutBlanks OnlySpaces)

/-- A text shows differently from some place on. -/
def Departs (text shown : List Char) : Prop :=
  ∃ common c d rest behind, text = common ++ c :: rest ∧ shown = common ++ d :: behind ∧
    c ≠ d ∧ isBlank c = false ∧ isBlank d = false ∧ d ≠ '\\'

namespace Departs

variable {text shown : List Char}

theorem append_left (departs : Departs text shown) (front : List Char) :
    Departs (front ++ text) (front ++ shown) := by
  obtain ⟨common, c, d, rest, behind, rfl, rfl, facts⟩ := departs
  exact ⟨front ++ common, c, d, rest, behind, by simp, by simp, facts⟩

theorem append (departs : Departs text shown) (more others : List Char) :
    Departs (text ++ more) (shown ++ others) := by
  obtain ⟨common, c, d, rest, behind, rfl, rfl, facts⟩ := departs
  exact ⟨common, c, d, rest ++ more, behind ++ others, by simp, by simp, facts⟩

/-- The difference is not one of blanks. -/
theorem withoutBlanks_ne (departs : Departs text shown) :
    withoutBlanks shown ≠ withoutBlanks text := by
  obtain ⟨common, c, d, rest, behind, rfl, rfl, other, visible, visible', -⟩ := departs
  simpa [withoutBlanks, visible, visible'] using fun same => absurd same.symm other

/-- The difference does not lie in backslashes at the end. -/
theorem of_append_backslashes {count : Nat}
    (departs : Departs text (shown ++ Markup.backslashes count)) : Departs text shown := by
  obtain ⟨common, c, d, rest, behind, rfl, same, facts⟩ := departs
  rcases List.append_eq_append_iff.1 same with ⟨middle, rfl, split⟩ | ⟨middle, rfl, split⟩
  · have isBackslash : d = '\\' :=
      List.eq_of_mem_replicate (show d ∈ Markup.backslashes count by rw [split]; simp)
    exact absurd isBackslash facts.2.2.2
  · cases middle with
    | nil =>
        have isBackslash : d = '\\' :=
          List.eq_of_mem_replicate (show d ∈ Markup.backslashes count by
            rw [← List.nil_append (Markup.backslashes count), ← split]; simp)
        exact absurd isBackslash facts.2.2.2
    | cons e others =>
        obtain ⟨rfl, -⟩ := List.cons.inj split
        exact ⟨common, c, d, rest, others, rfl, rfl, facts⟩

end Departs

namespace Emoji

variable {pictures : Pictures} {text : List Char}

/-- What holds of the pictures that have a name: they can be shown, and none of them begins
like a code, with a backslash or with a blank. -/
structure IsGallery (pictures : Pictures) : Prop where
  legible : ∀ {name picture}, pictures name = some picture → IsLegible picture
  begins : ∀ {name picture}, pictures name = some picture →
    ∃ c rest, picture = c :: rest ∧ c ≠ ':' ∧ c ≠ '\\' ∧ isBlank c = false

/-- The pictures that are known here can be shown. -/
theorem isGallery_known : IsGallery known := by
  have facts : ∀ entry ∈ named, entry.2 ≠ joiner ∧ isSuppressed entry.2 = false ∧
      entry.2 ≠ ':' ∧ entry.2 ≠ '\\' ∧ isBlank entry.2 = false := by decide
  have listed : ∀ {name picture}, known name = some picture → ∃ entry ∈ named,
      picture = [entry.2] := by
    intro name picture isPicture
    obtain ⟨c, found, rfl⟩ := Option.map_eq_some_iff.1 isPicture
    obtain ⟨before, behind, whole, -⟩ := List.lookup_eq_some_iff.1 found
    exact ⟨_, whole ▸ List.mem_append_right before List.mem_cons_self, rfl⟩
  constructor
  · intro name picture isPicture
    obtain ⟨entry, member, rfl⟩ := listed isPicture
    obtain ⟨noJoiner, shown, -, -, noBlank⟩ := facts entry member
    exact .singleton noJoiner noBlank shown
  · intro name picture isPicture
    obtain ⟨entry, member, rfl⟩ := listed isPicture
    obtain ⟨-, -, begins⟩ := facts entry member
    exact ⟨entry.2, [], rfl, begins⟩

/-- The codes of a text: what stands between two colons without a blank. `code` is what was
read since a colon that may open a code, last character first. -/
def codesBehind : Option (List Char) → List Char → List (List Char)
  | _, [] => []
  | none, c :: rest => if c = ':' then codesBehind (some []) rest else codesBehind none rest
  | some code, c :: rest =>
    if c = ':' then code.reverse :: codesBehind none rest
    else if isBlank c then codesBehind none rest
    else codesBehind (some (c :: code)) rest

/-- What was read since a colon, if there was one. -/
def pending : Option (List Char) → List Char
  | none => []
  | some code => ':' :: code.reverse

/-- Nothing in a text behind a possible code is interpreted: no bracket follows a backslash,
and no code stands for a picture. -/
structure IsPlainBehind (pictures : Pictures) (code : Option (List Char)) (text : List Char) :
    Prop where
  noEscape : ¬ ['\\', '['] <:+: text
  noPicture : ∀ name ∈ codesBehind code text, meaning? pictures name = none

theorem isPlainBehind_iff {code : Option (List Char)} :
    (¬ ['\\', '['] <:+: text ∧
      (codesBehind code text).all (fun name => (meaning? pictures name).isNone) = true) ↔
      IsPlainBehind pictures code text :=
  ⟨fun plain => ⟨plain.1, by simpa using plain.2⟩,
    fun plain => ⟨plain.noEscape, by simpa using plain.noPicture⟩⟩

instance (pictures : Pictures) (code : Option (List Char)) (text : List Char) :
    Decidable (IsPlainBehind pictures code text) :=
  decidable_of_iff _ isPlainBehind_iff

/-- A character ends a code that stands for a picture, or what comes before the next possible
code shows as it is. -/
theorem expandBehind_cons (pictures : Pictures) (code : Option (List Char)) (c : Char) :
    (∃ name picture, code = some name ∧ c = ':' ∧
      meaning? pictures name.reverse = some picture ∧
      ∀ text, expandBehind pictures code (c :: text) =
        picture ++ expandBehind pictures none text) ∨
    ∃ front next names, pending code ++ [c] = front ++ pending next ∧
      (∀ name ∈ names, meaning? pictures name = none) ∧ ∀ text,
      expandBehind pictures code (c :: text) = front ++ expandBehind pictures next text ∧
        codesBehind code (c :: text) = names ++ codesBehind next text := by
  cases code with
  | none =>
      refine .inr ?_
      by_cases isColon : c = ':'
      · exact ⟨[], some [], [], by simp [pending, isColon], nofun, fun text => by
          simp [expandBehind, codesBehind, isColon]⟩
      · exact ⟨[c], none, [], by simp [pending], nofun, fun text => by
          simp [expandBehind, codesBehind, isColon]⟩
  | some code =>
      by_cases isColon : c = ':'
      · cases means : meaning? pictures code.reverse with
        | none =>
            exact .inr ⟨pending (some code) ++ [c], none, [code.reverse], by simp [pending],
              by simpa using means, fun text => by
                simp [expandBehind, codesBehind, shown, means, isColon, pending]⟩
        | some picture =>
            exact .inl ⟨code, picture, rfl, isColon, means, fun text => by
              simp [expandBehind, shown, means, isColon]⟩
      · refine .inr ?_
        by_cases blank : isBlank c = true
        · exact ⟨pending (some code) ++ [c], none, [], by simp [pending], nofun, fun text => by
            simp [expandBehind, codesBehind, isColon, blank, pending]⟩
        · exact ⟨[], some (c :: code), [], by simp [pending], nofun, fun text => by
            simp [expandBehind, codesBehind, isColon, blank]⟩

@[simp] theorem expandBehind_nil (code : Option (List Char)) :
    expandBehind pictures code [] = pending code := by
  cases code <;> simp [expandBehind, pending]

@[simp] theorem codesBehind_nil (code : Option (List Char)) : codesBehind code [] = [] := by
  cases code <;> rfl

/-- Behind the last colon no code ends. -/
theorem expandBehind_of_not_mem (absent : ':' ∉ text) (code : Option (List Char)) :
    expandBehind pictures code text = pending code ++ text := by
  induction text generalizing code with
  | nil => simp
  | cons c rest inductionHypothesis =>
      rw [List.mem_cons, not_or] at absent
      rcases expandBehind_cons pictures code c with
        ⟨name, picture, -, isColon, -⟩ | ⟨front, next, names, split, -, step⟩
      · exact absurd isColon.symm absent.1
      · rw [(step rest).1, inductionHypothesis absent.2, ← List.append_assoc, ← split]
        simp

theorem expandBehind_append {tail : List Char} (absent : ':' ∉ tail) (code : Option (List Char))
    (text : List Char) :
    expandBehind pictures code (text ++ tail) = expandBehind pictures code text ++ tail := by
  induction text generalizing code with
  | nil => rw [List.nil_append, expandBehind_of_not_mem absent, expandBehind_nil]
  | cons c rest inductionHypothesis =>
      rw [List.cons_append]
      rcases expandBehind_cons pictures code c with
        ⟨name, picture, -, -, -, step⟩ | ⟨front, next, names, -, -, step⟩
      · rw [step, step, inductionHypothesis, List.append_assoc]
      · rw [(step _).1, (step _).1, inductionHypothesis, List.append_assoc]

/-- What shows for a code that stands for a picture begins like no code and no backslash. -/
theorem exists_meaning (gallery : IsGallery pictures) {code shown : List Char}
    (means : meaning? pictures code = some shown) :
    IsLegible shown ∧ ∃ c rest, shown = c :: rest ∧ c ≠ ':' ∧ c ≠ '\\' ∧ isBlank c = false := by
  rw [meaning?] at means
  split at means
  · rename_i wish selector found
    obtain ⟨picture, isPicture, rfl⟩ := Option.map_eq_some_iff.1 means
    obtain ⟨c, rest, rfl, facts⟩ := gallery.begins isPicture
    refine ⟨(gallery.legible isPicture).append ?_, c, rest ++ [selector], rfl, facts⟩
    have selectors : ∀ form ∈ forms,
        form.2 ≠ joiner ∧ isBlank form.2 = false ∧ isSuppressed form.2 = false := by decide
    obtain ⟨noJoiner, noBlank, shown⟩ := selectors _ (List.mem_of_find?_eq_some found)
    exact .singleton noJoiner noBlank shown
  · exact ⟨gallery.legible means, gallery.begins means⟩

/-- Behind a colon, an expanded text begins with what follows the colon, or with a picture. -/
theorem expandBehind_some (gallery : IsGallery pictures) (code text : List Char) :
    (∃ behind, expandBehind pictures (some code) text = pending (some code) ++ behind) ∨
      ∃ d behind, expandBehind pictures (some code) text = d :: behind ∧ d ≠ ':' ∧ d ≠ '\\' ∧
        isBlank d = false := by
  induction text generalizing code with
  | nil => exact .inl ⟨[], by simp [expandBehind, pending]⟩
  | cons c rest inductionHypothesis =>
      rw [expandBehind]
      split
      · cases means : meaning? pictures code.reverse with
        | none =>
            exact .inl ⟨':' :: expandBehind pictures none rest, by simp [shown, means, pending]⟩
        | some shownText =>
            obtain ⟨-, d, more, rfl, facts⟩ := exists_meaning gallery means
            exact .inr ⟨d, _, by rw [shown, means]; rfl, facts⟩
      · split
        · exact .inl ⟨c :: expandBehind pictures none rest, by simp [pending]⟩
        · refine (inductionHypothesis (c :: code)).imp_left ?_
          rintro ⟨behind, same⟩
          exact ⟨c :: behind, by rw [same]; simp [pending]⟩

/-- A piece shows as it is exactly if nothing in it is interpreted. Otherwise it shows
differently from some place on. -/
theorem expandBehind_unescapeBrackets (gallery : IsGallery pictures)
    (code : Option (List Char)) (text : List Char) :
    (IsPlainBehind pictures code text ∧
        expandBehind pictures code (Markup.unescapeBrackets text) = pending code ++ text) ∨
      (¬ IsPlainBehind pictures code text ∧ Departs (pending code ++ text)
        (expandBehind pictures code (Markup.unescapeBrackets text))) := by
  fun_induction Markup.unescapeBrackets text generalizing code with
  | case1 => exact .inl ⟨⟨by simp, by simp⟩, by simp⟩
  | case2 rest inductionHypothesis =>
      refine .inr ⟨fun plain => plain.noEscape ⟨[], rest, rfl⟩, ?_⟩
      cases code with
      | none => exact ⟨[], '\\', '[', _, _, rfl, rfl, by decide⟩
      | some code =>
          have noBlank : isBlank '[' = false := by decide
          rcases expandBehind_some gallery ('[' :: code) (Markup.unescapeBrackets rest) with
            ⟨behind, same⟩ | ⟨d, behind, same, facts⟩
          · refine ⟨pending (some code), '\\', '[', '[' :: rest, behind, rfl, ?_, by decide⟩
            simpa [expandBehind, pending, noBlank] using same
          · refine ⟨[], ':', d, _, behind, rfl, ?_, Ne.symm facts.1, by decide, facts.2.2,
              facts.2.1⟩
            simpa [expandBehind, noBlank] using same
  | case3 c rest isNoEscape inductionHypothesis =>
      have noEscape : ¬ ['\\', '['] <+: c :: rest := by
        rintro ⟨others, same⟩
        obtain ⟨rfl, rest_eq⟩ := List.cons.inj same
        exact isNoEscape others rfl rest_eq.symm
      rcases expandBehind_cons pictures code c with
        ⟨name, picture, rfl, rfl, means, step⟩ | ⟨front, next, names, split, meaningless, step⟩
      · obtain ⟨-, d, more, rfl, facts⟩ := exists_meaning gallery means
        refine .inr ⟨fun plain => ?_, [], ':', d, _, _, rfl, step _, Ne.symm facts.1, by decide,
          facts.2.2, facts.2.1⟩
        have none := plain.noPicture name.reverse (by simp [codesBehind])
        rw [none] at means
        cases means
      · have plain : IsPlainBehind pictures code (c :: rest) ↔
            IsPlainBehind pictures next rest := by
          constructor
          · rintro ⟨inside, none⟩
            rw [(step rest).2] at none
            exact ⟨fun escape => inside (List.infix_cons escape),
              (List.forall_mem_append.1 none).2⟩
          · rintro ⟨inside, none⟩
            refine ⟨fun escape => (List.infix_cons_iff.1 escape).elim noEscape inside, ?_⟩
            rw [(step rest).2]
            exact List.forall_mem_append.2 ⟨meaningless, none⟩
        have text : pending code ++ c :: rest = front ++ (pending next ++ rest) := by
          rw [← List.append_assoc, ← split]
          simp
        rw [plain, text, (step _).1]
        exact (inductionHypothesis next).imp (And.imp_right fun same => by rw [same])
          (And.imp_right fun departs => departs.append_left front)

/-- A printable text is legible with its pictures. -/
theorem isLegible_expandBehind (gallery : IsGallery pictures) {code : Option (List Char)}
    (printable : ∀ c ∈ pending code ++ text, Text.isPrintable c = true) :
    IsLegible (expandBehind pictures code text) := by
  induction text generalizing code with
  | nil => simpa using IsLegible.of_isPrintable printable
  | cons c rest inductionHypothesis =>
      rcases expandBehind_cons pictures code c with
        ⟨name, picture, -, -, means, step⟩ | ⟨front, next, names, split, -, step⟩
      · rw [step]
        refine (exists_meaning gallery means).1.append (inductionHypothesis fun d member => ?_)
        exact printable d (List.mem_append_right _ (List.mem_cons_of_mem c member))
      · have text : pending code ++ c :: rest = front ++ (pending next ++ rest) := by
          rw [← List.append_assoc, ← split]
          simp
        rw [text, List.forall_mem_append] at printable
        rw [(step rest).1]
        exact (IsLegible.of_isPrintable printable.1).append (inductionHypothesis printable.2)

end Emoji

/-- A piece of a markup in which nothing is interpreted: no bracket follows a backslash, and no
code stands for a picture. -/
abbrev Emoji.IsPlain (pictures : Emoji.Pictures) (piece : List Char) : Prop :=
  Emoji.IsPlainBehind pictures none piece

end Roster.Terminal
