import Roster.Proofs.CommandLine.Usage

/-!
# Claimed words

An option claims the words behind it as its values, and what no option claims is the source
of a command, or the command itself. The roles of the words alone settle which words are
claimed, and the reading follows them step by step: `Follows` says what a step over a word
changes, and holds of every word but the positional ones of the program.
-/

namespace Roster.CommandLine

/-- A word names an option. -/
def Word.Names (word : Word) (parameter : Parameter) : Prop :=
  ∃ isShort attached, word.role = .option parameter isShort attached

/-- A word names an option that takes no values, and so ends the reading. -/
def Word.IsFlag (word : Word) : Prop :=
  ∃ parameter, word.Names parameter ∧ parameter.arity = .none

/-- How many words are claimed behind a word, if it is itself one of those claimed. -/
def Word.claim (word : Word) (claimed : Arity) : Arity :=
  match word.role with
  | .option parameter _ none => parameter.arity
  | .plain => if claimed = .some then .some else .none
  | _ => .none

/-- The texts of the plain words that no option claims. -/
def freeWords : Arity → List Word → List String
  | _, [] => []
  | claimed, word :: rest =>
    let others := freeWords (word.claim claimed) rest
    if word.role = .plain ∧ claimed = .none then word.text :: others else others

/-- Words in front of the first free one: options with the words that they claim. -/
inductive IsFront : Arity → List Word → Prop where
  | nil : IsFront .none []
  | cons {claimed : Arity} {word : Word} {rest : List Word}
      (inside : word.role ≠ .separator) (bound : word.role = .plain → claimed ≠ .none)
      (behind : IsFront (word.claim claimed) rest) : IsFront claimed (word :: rest)

/-- In front of the first free word there is none. -/
theorem IsFront.freeWords_eq_nil {claimed : Arity} {words : List Word}
    (isFront : IsFront claimed words) : freeWords claimed words = [] := by
  induction isFront with
  | nil => rfl
  | cons _ bound _ inductionHypothesis =>
      rw [freeWords, if_neg (not_and.2 bound), inductionHypothesis]

namespace Expectation

/-- How many words an expectation claims. -/
def claim : Expectation → Arity
  | .value _ _ => .one
  | .moreValues _ _ => .some
  | _ => .none

/-- The option whose values are expected. -/
def awaited? : Expectation → Option Parameter
  | .value _ parameter => some parameter
  | .moreValues parameter _ => some parameter
  | _ => none

@[simp] theorem claim_anything : claim .anything = .none := rfl

@[simp] theorem claim_value (flags : List Parameter) (parameter : Parameter) :
    claim (.value flags parameter) = .one := rfl

@[simp] theorem claim_moreValues (parameter : Parameter) (values : List String) :
    claim (.moreValues parameter values) = .some := rfl

@[simp] theorem claim_sourceEnd : claim .sourceEnd = .none := rfl

@[simp] theorem claim_sourceText : claim .sourceText = .none := rfl

@[simp] theorem awaited?_anything : awaited? .anything = none := rfl

@[simp] theorem awaited?_value (flags : List Parameter) (parameter : Parameter) :
    awaited? (.value flags parameter) = some parameter := rfl

@[simp] theorem awaited?_moreValues (parameter : Parameter) (values : List String) :
    awaited? (.moreValues parameter values) = some parameter := rfl

@[simp] theorem awaited?_sourceEnd : awaited? .sourceEnd = none := rfl

@[simp] theorem awaited?_sourceText : awaited? .sourceText = none := rfl

/-- An expectation that can arise in a scope, without flags that are still to be read. -/
def IsOpen (scope : Scope) : Expectation → Prop
  | .anything => True
  | .value flags parameter => flags = [] ∧ parameter.arity ≠ .none ∧ parameter ≠ .source
  | .moreValues parameter _ => parameter.arity ≠ .none ∧ parameter ≠ .source
  | .sourceEnd | .sourceText => scope ≠ .program
  | .nothing => False

theorem isOpen_anything (scope : Scope) : IsOpen scope .anything := trivial

/-- Flags are still to be read, which end the reading. -/
def HoldsFlag : Expectation → Prop
  | .value flags _ => flags ≠ [] ∧ ∀ flag ∈ flags, flag.arity = .none
  | _ => False

end Expectation

/-- A source is given, or its value is still expected. -/
def HasSource (state : Expectation × Progress) (parameter : Parameter) : Prop :=
  state.2.options.gives parameter = true ∨ state.1.awaited? = some parameter

/-- What a step over a word changes. As long as no word is left over, the source is the
first free word. -/
structure Follows (word : Word) (before after : Expectation × Progress) : Prop where
  claim : after.1.claim = word.claim before.1.claim
  command : after.2.command = before.2.command
  extras : after.2.extras = [] → before.2.extras = []
  named : ∀ parameter ∈ namedSources,
    HasSource after parameter ↔ HasSource before parameter ∨ word.Names parameter
  source : after.2.extras = [] → after.2.options.source.toList =
    before.2.options.source.toList ++ freeWords before.1.claim [word]
  exclusive : before.2.options.IsExclusive → after.2.options.IsExclusive

/-- What reading words changes. -/
structure Reads (words : List Word) (before : Expectation × Progress) (final : Progress) :
    Prop where
  extras : final.extras = [] → before.2.extras = []
  named : ∀ parameter ∈ namedSources, final.options.gives parameter = true ↔
    HasSource before parameter ∨ ∃ word ∈ words, word.Names parameter
  source : final.extras = [] → final.options.source.toList =
    before.2.options.source.toList ++ freeWords before.1.claim words
  exclusive : before.2.options.IsExclusive → final.options.IsExclusive

theorem freeWords_cons (claimed : Arity) (word : Word) (rest : List Word) :
    freeWords claimed (word :: rest) =
      freeWords claimed [word] ++ freeWords (word.claim claimed) rest := by
  simp only [freeWords]
  split <;> rfl

/-- Behind a step over a word, the other words are read. -/
theorem Follows.reads {word : Word} {rest : List Word} {before after : Expectation × Progress}
    {final : Progress} (follows : Follows word before after) (reads : Reads rest after final) :
    Reads (word :: rest) before final where
  extras none := follows.extras (reads.extras none)
  named parameter isNamed := by
    rw [reads.named parameter isNamed, follows.named parameter isNamed]
    simp [or_assoc]
  source none := by
    rw [reads.source none, follows.source (reads.extras none), follows.claim,
      freeWords_cons _ word rest, List.append_assoc]
  exclusive single := reads.exclusive (follows.exclusive single)

section Words

variable {excuse : Prop} {scope : Scope} {progress : Progress} {flags : List Parameter}
  {parameter : Parameter} {word : Word} {rest : List Word}

/-- No option with a name of one letter takes several values. -/
theorem arity_ne_some_of_short {scope : Scope} {c : Char} {parameter : Parameter}
    (found : scope.option? ['-', c] = some parameter) : parameter.arity ≠ .some := by
  have table : ∀ entry ∈ scope.optionNames, entry.1.toList.length = 2 →
      entry.2.arity ≠ .some := by
    cases scope with
    | program => decide
    | command given => cases given <;> decide
  obtain ⟨front, back, split, -⟩ := List.lookup_eq_some_iff.1 found
  exact table (String.ofList ['-', c], parameter) (by simp [split]) (by simp)

/-- Names attached to a flag are read as far as a value is expected, which comes too late. -/
theorem gives_readAttached_flag (areFlags : ∀ flag ∈ flags, flag.arity = .none)
    (isFlagged : parameter.arity = .none ∨ flags ≠ []) (isShort : Bool) (text : List Char) :
    Gives (readAttached scope progress flags parameter isShort text) (·.1.HoldsFlag) := by
  induction text generalizing flags parameter isShort with
  | nil =>
      unfold readAttached
      split
      · exact Gives.error _ _
      · exact Gives.bind_none (gives_completeAll_flag areFlags isFlagged _)
  | cons c others inductionHypothesis =>
      unfold readAttached
      split
      · rename_i isFlag
        have areFlagsToo : ∀ flag ∈ flags ++ [parameter], flag.arity = .none := by
          intro flag member
          rcases List.mem_append.1 member with before | same
          · exact areFlags flag before
          · rw [List.mem_singleton.1 same, isFlag]
        have some : flags ++ [parameter] ≠ [] := by simp
        split
        · rename_i next found
          split
          · unfold readOption
            split
            · exact Gives.bind_none (gives_completeAll_flag areFlagsToo (.inr some) _)
            · exact Gives.ok ⟨some, areFlagsToo⟩
            · rename_i several
              exact absurd several (arity_ne_some_of_short found)
          · exact inductionHypothesis areFlagsToo (.inr some) true
        · exact Gives.error _ _
      · exact Gives.bind_none (gives_completeAll_flag areFlags isFlagged _)

/-- Where flags are still to be read, the reading comes to no result. -/
theorem gives_readWords_flag {expectation : Expectation} (flagged : expectation.HoldsFlag)
    {property : Progress → Prop} (words : List Word) :
    Gives (readWords scope expectation progress words) property := by
  obtain ⟨flags, parameter, rfl⟩ : ∃ flags parameter, expectation = .value flags parameter := by
    cases expectation <;> first | exact ⟨_, _, rfl⟩ | cases flagged
  cases words with
  | nil => exact Gives.error _ _
  | cons word rest =>
      refine Gives.bind_none ?_
      rw [step]
      split
      · exact Gives.bind_none (gives_completeAll_flag flagged.2 (.inr flagged.1) _)
      · exact Gives.error _ _

/-- An option that takes values and has a text attached to it is completed with it. -/
theorem readAttached_of_valued (valued : parameter.arity ≠ .none) (isShort : Bool)
    (text : List Char) :
    readAttached scope progress flags parameter isShort text = (do
      return (.anything, <- progress.completeAll scope flags parameter [String.ofList text])) := by
  cases text <;> cases arity : parameter.arity <;> simp_all [readAttached]

/-- A word that changes nothing but what is expected is followed. -/
theorem follows_unchanged {before after : Expectation}
    (claim : after.claim = word.claim before.claim) (bound : freeWords before.claim [word] = [])
    (named : ∀ other,
      after.awaited? = some other ↔ before.awaited? = some other ∨ word.Names other) :
    Follows word (before, progress) (after, progress) where
  claim := claim
  command := rfl
  extras := id
  named other _ := by simp [HasSource, named other, or_assoc]
  source _ := by simp [bound]
  exclusive := id

/-- What completing an option sets is followed, whether the word names the option or is the
value that it awaits. -/
theorem follows_set {expectation : Expectation} {after : Progress} {values : List String}
    (given : values ≠ []) (notSource : parameter ≠ .source)
    (claimless : word.claim expectation.claim = .none)
    (bound : freeWords expectation.claim [word] = [])
    (named : ∀ other, expectation.awaited? = some other ∨ word.Names other ↔ parameter = other)
    (completed : after = { progress with options := progress.options.set parameter values } ∧
      (progress.options.IsExclusive → after.options.IsExclusive)) :
    Follows word (expectation, progress) (.anything, after) := by
  obtain ⟨rfl, kept⟩ := completed
  exact
    { claim := claimless.symm
      command := rfl
      extras := id
      named := fun other isNamed => by
        simp [HasSource, Options.gives_set isNamed given, ← named other, or_assoc]
      source := fun _ => by simp [Options.source_set notSource, bound]
      exclusive := kept }

/-- An option whose values are all read is completed in front of a word that is none of
them. -/
theorem Follows.of_moreValues {values : List String} {between : Progress}
    {after : Expectation × Progress} (given : values ≠ []) (notSource : parameter ≠ .source)
    (ends : word.role ≠ .plain)
    (completed : between = { progress with options := progress.options.set parameter values } ∧
      (progress.options.IsExclusive → between.options.IsExclusive))
    (follows : Follows word (.anything, between) after) :
    Follows word (.moreValues parameter values, progress) after := by
  obtain ⟨rfl, kept⟩ := completed
  have sameClaim : ∀ claimed, word.claim claimed = word.claim .none := fun claimed => by
    unfold Word.claim
    split <;> first | rfl | exact absurd ‹_› ends
  have noFree : ∀ claimed, freeWords claimed [word] = [] := fun claimed => by
    simp [freeWords, ends]
  exact
    { claim := follows.claim.trans (sameClaim _).symm
      command := follows.command
      extras := follows.extras
      named := fun other isNamed => by
        rw [follows.named other isNamed]
        simp [HasSource, Options.gives_set isNamed given]
      source := fun none => by
        rw [follows.source none, noFree, noFree]
        exact congrArg (·.toList ++ []) (Options.source_set notSource)
      exclusive := fun single => follows.exclusive (kept single) }

/-- A word that no parameter takes is followed. -/
theorem follows_addExtra (claimless : word.claim .none = .none)
    (noOption : ∀ other, ¬word.Names other) :
    Follows word (.anything, progress) (.anything, progress.addExtra word.text) where
  claim := claimless.symm
  command := rfl
  extras none := absurd none (by simp [Progress.addExtra])
  named other _ := by simp [HasSource, Progress.addExtra, noOption]
  source none := absurd none (by simp [Progress.addExtra])
  exclusive := id

/-- An option without a value attached to it is followed. -/
theorem ends_readOption {isShort : Bool} (role : word.role = .option parameter isShort none)
    (notSource : parameter ≠ .source) (excused : word.IsFlag → excuse) :
    Ends excuse (readOption scope progress [] parameter) fun after =>
      excuse ∧ after.1.HoldsFlag ∨
        after.1.IsOpen scope ∧ Follows word (.anything, progress) after := by
  have follows (next : Expectation) (claims : next.claim = parameter.arity)
      (awaits : next.awaited? = some parameter) :
      Follows word (.anything, progress) (next, progress) :=
    follows_unchanged (by simp [Word.claim, role, claims]) (by simp [freeWords, role])
      (by simp [awaits, Word.Names, role])
  unfold readOption
  split
  · rename_i isFlag
    refine Ends.of_excuse (excused ⟨parameter, ⟨_, _, role⟩, isFlag⟩) ?_
    exact Gives.bind_none (gives_completeAll_flag (List.forall_mem_nil _) (.inl isFlag) _)
  · rename_i one
    have valued : parameter.arity ≠ .none := by simp [one]
    exact Ends.ok (.inr ⟨⟨rfl, valued, notSource⟩, follows _ one.symm rfl⟩)
  · rename_i several
    have valued : parameter.arity ≠ .none := by simp [several]
    exact Ends.ok (.inr ⟨⟨valued, notSource⟩, follows _ several.symm rfl⟩)

/-- An option with a text attached to it is followed. -/
theorem ends_readAttached {isShort : Bool} {text : List Char}
    (role : word.role = .option parameter isShort (some text)) (notSource : parameter ≠ .source)
    (excused : word.IsFlag → excuse) :
    Ends excuse (readAttached scope progress [] parameter isShort text) fun after =>
      excuse ∧ after.1.HoldsFlag ∨
        after.1.IsOpen scope ∧ Follows word (.anything, progress) after := by
  by_cases isFlag : parameter.arity = .none
  · have holds := excused ⟨parameter, ⟨_, _, role⟩, isFlag⟩
    refine Ends.of_excuse holds fun after result => .inl ⟨holds, ?_⟩
    exact gives_readAttached_flag (List.forall_mem_nil _) (.inl isFlag) isShort text after result
  · rw [readAttached_of_valued isFlag]
    refine Ends.bind (ends_completeAll isFlag _) fun after completed => ?_
    refine Ends.ok (.inr ⟨trivial, follows_set (by simp) notSource ?_ ?_ ?_ completed⟩)
    · simp [Word.claim, role]
    · simp [freeWords, role]
    · simp [Word.Names, role]

/-- A free word of a command is taken as the source, if there is none yet. -/
theorem ends_freeWord (inCommand : scope ≠ .program) (role : word.role = .plain) :
    Ends excuse (readWord scope progress word rest) fun after =>
      after.1.IsOpen scope ∧ Follows word (.anything, progress) after := by
  obtain ⟨command, rfl⟩ : ∃ command, scope = .command command := by
    cases scope <;> first | exact ⟨_, rfl⟩ | exact absurd rfl inCommand
  have noOption (other : Parameter) : ¬word.Names other := by simp [Word.Names, role]
  have claimless : word.claim .none = .none := by simp [Word.claim, role]
  rw [readWord, role]
  dsimp only
  split
  · exact Ends.ok ⟨trivial, follows_addExtra claimless noOption⟩
  · rename_i free
    rw [Option.not_isSome_iff_eq_none] at free
    refine Ends.bind (ends_completeAll (by decide) _) ?_
    rintro _ ⟨rfl, kept⟩
    refine Ends.ok ⟨by simp [Expectation.IsOpen], ?_⟩
    exact
      { claim := claimless.symm
        command := rfl
        extras := id
        named := fun other isNamed => by
          have different : Parameter.source ≠ other := by
            rintro rfl
            exact absurd isNamed (by decide)
          simp [HasSource, Options.gives_set isNamed, different, noOption]
        source := fun _ => by simp [Options.set, freeWords, role, free]
        exclusive := kept }

/-- In front of the source of a command, the separator only lets the source begin with a
hyphen. -/
theorem ends_separator (inCommand : scope ≠ .program) (role : word.role = .separator) :
    Ends excuse (readWord scope progress word rest) fun after =>
      after.1.IsOpen scope ∧ Follows word (.anything, progress) after := by
  obtain ⟨command, rfl⟩ : ∃ command, scope = .command command := by
    cases scope <;> first | exact ⟨_, rfl⟩ | exact absurd rfl inCommand
  have noOption (other : Parameter) : ¬word.Names other := by simp [Word.Names, role]
  have claimless : word.claim .none = .none := by simp [Word.claim, role]
  rw [readWord, role]
  dsimp only
  split
  · exact Ends.ok ⟨trivial, follows_addExtra claimless noOption⟩
  · refine Ends.ok ⟨by simp [Expectation.IsOpen], follows_unchanged claimless.symm ?_ ?_⟩
    · simp [freeWords, role]
    · simp [noOption]

/-- A word that is read for itself is followed, unless it is one of the positional words of
the program. -/
theorem ends_readWord (fits : scope ≠ .program ∨ word.role ≠ .separator ∧ word.role ≠ .plain)
    (notSource : ∀ other, word.Names other → other ≠ .source) (excused : word.IsFlag → excuse) :
    Ends excuse (readWord scope progress word rest) fun after =>
      excuse ∧ after.1.HoldsFlag ∨
        after.1.IsOpen scope ∧ Follows word (.anything, progress) after := by
  cases role : word.role with
  | option parameter isShort attached =>
      have noSource := notSource parameter ⟨_, _, role⟩
      unfold readWord
      rw [role]
      cases attached with
      | none => exact ends_readOption role noSource excused
      | some text => exact ends_readAttached role noSource excused
  | unknownOption =>
      unfold readWord
      rw [role]
      have noOption (other : Parameter) : ¬word.Names other := by simp [Word.Names, role]
      exact Ends.ok (.inr ⟨trivial, follows_addExtra (by simp [Word.claim, role]) noOption⟩)
  | plain =>
      have inCommand := fits.resolve_right fun others => others.2 role
      exact (ends_freeWord inCommand role).mono fun _ => .inr
  | separator =>
      have inCommand := fits.resolve_right fun others => others.1 role
      exact (ends_separator inCommand role).mono fun _ => .inr

/-- A step over a word is followed, unless the word is one of the positional words of the
program. -/
theorem ends_step {expectation : Expectation} (isOpen : expectation.IsOpen scope)
    (fits : scope ≠ .program ∨
      word.role ≠ .separator ∧ (word.role = .plain → expectation.claim ≠ .none))
    (notSource : ∀ other, word.Names other → other ≠ .source) (excused : word.IsFlag → excuse) :
    Ends excuse (step scope progress word rest expectation) fun after =>
      excuse ∧ after.1.HoldsFlag ∨
        after.1.IsOpen scope ∧ Follows word (expectation, progress) after := by
  cases expectation with
  | anything =>
      refine ends_readWord (fits.imp_right fun others => ⟨others.1, fun isPlain => ?_⟩) notSource
        excused
      exact others.2 isPlain rfl
  | value flags parameter =>
      obtain ⟨rfl, valued, noSource⟩ := isOpen
      rw [step]
      split
      · rename_i role
        refine Ends.bind (ends_completeAll valued _) fun after completed => ?_
        refine Ends.ok (.inr ⟨trivial, follows_set (by simp) noSource ?_ ?_ ?_ completed⟩)
        · simp [Word.claim, role]
        · simp [freeWords, role]
        · simp [Word.Names, role]
      · exact Ends.usage _ _ _
  | moreValues parameter values =>
      obtain ⟨valued, noSource⟩ := isOpen
      rw [step]
      split
      · rename_i role
        refine Ends.ok (.inr ⟨⟨valued, noSource⟩, follows_unchanged ?_ ?_ ?_⟩)
        · simp [Word.claim, role]
        · simp [freeWords, role]
        · simp [Word.Names, role]
      · rename_i role
        split
        · exact Ends.usage _ _ _
        · rename_i some
          rw [List.isEmpty_iff] at some
          refine Ends.bind (ends_completeAll valued _) fun between completed => ?_
          refine (ends_readWord (fits.imp_right fun others => ⟨others.1, role⟩) notSource
            excused).mono fun after => Or.imp_right (And.imp_right fun follows => ?_)
          exact follows.of_moreValues some noSource role completed
  | sourceEnd =>
      rw [step]
      split
      · rename_i role
        refine Ends.ok (.inr ⟨trivial, follows_unchanged ?_ ?_ ?_⟩)
        · simp [Word.claim, role]
        · simp [freeWords, role]
        · simp [Word.Names, role]
      · refine (ends_readWord (.inl isOpen) notSource excused).mono fun after =>
          Or.imp_right (And.imp_right fun follows => ?_)
        exact { follows with }
  | sourceText =>
      refine (ends_readWord (.inl isOpen) notSource excused).mono fun after =>
        Or.imp_right (And.imp_right fun follows => ?_)
      exact { follows with }
  | nothing => cases isOpen

/-- Where the words end, what is expected no more is left as it is. -/
theorem ends_finish {expectation : Expectation} (isOpen : expectation.IsOpen scope) :
    Ends excuse (finish scope progress expectation) fun final =>
      final.command = progress.command ∧ Reads [] (expectation, progress) final := by
  have unchanged {other : Expectation} (none : other.awaited? = none) :
      Reads [] (other, progress) progress :=
    { extras := id
      named := fun parameter _ => by simp [HasSource, none]
      source := fun _ => by simp [freeWords]
      exclusive := id }
  cases expectation with
  | value flags parameter => exact Ends.usage _ _ _
  | moreValues parameter values =>
      obtain ⟨valued, noSource⟩ := isOpen
      rw [finish]
      split
      · exact Ends.usage _ _ _
      · rename_i some
        rw [List.isEmpty_iff] at some
        refine (ends_completeAll valued _).mono ?_
        rintro _ ⟨rfl, kept⟩
        refine ⟨rfl, ?_⟩
        exact
          { extras := id
            named := fun other isNamed => by
              simp [HasSource, Options.gives_set isNamed some]
            source := fun _ => by simp [freeWords, Options.source_set noSource]
            exclusive := kept }
  | anything => exact Ends.ok ⟨rfl, unchanged rfl⟩
  | sourceEnd => exact Ends.ok ⟨rfl, unchanged rfl⟩
  | sourceText => exact Ends.ok ⟨rfl, unchanged rfl⟩
  | nothing => cases isOpen

end Words

end Roster.CommandLine
