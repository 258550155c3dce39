import Roster.Proofs.CommandLine.Claims

/-!
# Reading claimed words

What the steps over the words add up to. Behind a command, the sources that are given are
those whose options are named, and the first free word. In front of it, the first free word
is the name of the command.
-/

namespace Roster.CommandLine

section Words

variable {excuse : Prop} {progress : Progress} {word : Word} {rest : List Word}

/-- The words of a command are read to their end. -/
theorem ends_readWords {command : Command} {expectation : Expectation} {words : List Word}
    (isOpen : expectation.IsOpen (.command command))
    (notSource : ∀ word ∈ words, ∀ other, word.Names other → other ≠ .source)
    (excused : ∀ word ∈ words, word.IsFlag → excuse) :
    Ends excuse (readWords (.command command) expectation progress words)
      (Reads words (expectation, progress)) := by
  induction words generalizing expectation progress with
  | nil => exact (ends_finish isOpen).mono fun _ => And.right
  | cons word rest inductionHypothesis =>
      refine Ends.bind (ends_step isOpen (.inl (by simp)) (notSource word List.mem_cons_self)
        (excused word List.mem_cons_self)) ?_
      rintro ⟨next, after⟩ (⟨holds, flagged⟩ | ⟨isOpenNext, follows⟩)
      · exact Ends.of_excuse holds (gives_readWords_flag flagged rest)
      · exact (inductionHypothesis isOpenNext
          (fun other member => notSource other (List.mem_cons_of_mem _ member))
          fun other member => excused other (List.mem_cons_of_mem _ member)).mono
            fun _ => follows.reads

/-- What the words of a command give, whether flags are among them or not. -/
theorem gives_readWords_command {command : Command} {expectation : Expectation} {words : List Word}
    (isOpen : expectation.IsOpen (.command command))
    (notSource : ∀ word ∈ words, ∀ other, word.Names other → other ≠ .source) :
    Gives (readWords (.command command) expectation progress words)
      (Reads words (expectation, progress)) :=
  (ends_readWords isOpen notSource fun _ _ _ => trivial : Ends True _ _).gives

/-- Nothing but a free word can follow where the program expects no value. -/
theorem eq_anything_of_isOpen {expectation : Expectation} (isOpen : expectation.IsOpen .program)
    (claimless : expectation.claim = .none) : expectation = .anything := by
  cases expectation with
  | anything => rfl
  | value flags parameter => cases claimless
  | moreValues parameter values => cases claimless
  | sourceEnd => exact absurd rfl isOpen
  | sourceText => exact absurd rfl isOpen
  | nothing => cases isOpen

/-- The name of a command leaves all words behind it to the command. -/
theorem readWords_commandWord (progress : Progress) (name : String) (rest : List Word) :
    readWords .program .anything progress ({ text := name, role := .plain } :: rest) =
      .ok { progress with command := some (name, rest.map Word.text) } := by
  rw [readWords, step, readWord]
  exact readWords_nothing .program _ rest

/-- A command whose name is found changes no option. -/
theorem reads_command (progress : Progress) (given : Option (String × List String)) :
    Reads [] (.anything, progress) { progress with command := given } where
  extras := id
  named := fun parameter _ => by simp [HasSource]
  source := fun _ => by simp [freeWords]
  exclusive := id

/-- The first free word of the program is the name of a command, to which all words behind it
are left. -/
theorem ends_readWords_front {expectation : Expectation} {front : List Word}
    (isOpen : expectation.IsOpen .program) (isFront : IsFront expectation.claim front)
    (notSource : ∀ word ∈ front, ∀ other, word.Names other → other ≠ .source)
    (excused : ∀ word ∈ front, word.IsFlag → excuse) (name : String) (rest : List Word) :
    Ends excuse
      (readWords .program expectation progress (front ++ { text := name, role := .plain } :: rest))
      fun outer => outer.command = some (name, rest.map Word.text) ∧
        Reads front (expectation, progress) outer := by
  generalize claims : expectation.claim = claimed at isFront
  induction isFront generalizing expectation progress with
  | nil =>
      rw [eq_anything_of_isOpen isOpen claims, List.nil_append, readWords_commandWord]
      exact Ends.ok ⟨rfl, reads_command progress _⟩
  | cons inside bound behind inductionHypothesis =>
      rename_i word others
      refine Ends.bind (ends_step isOpen (.inr ⟨inside, by rw [claims]; exact bound⟩)
        (notSource word List.mem_cons_self) (excused word List.mem_cons_self)) ?_
      rintro ⟨next, after⟩ (⟨holds, flagged⟩ | ⟨isOpenNext, follows⟩)
      · exact Ends.of_excuse holds (gives_readWords_flag flagged _)
      · refine (inductionHypothesis isOpenNext
          (fun other member => notSource other (List.mem_cons_of_mem _ member))
          (fun other member => excused other (List.mem_cons_of_mem _ member))
          (by rw [follows.claim, claims])).mono fun outer => And.imp_right follows.reads

/-- In the program, a separator is taken for the name of a command, unless nothing is behind
it. -/
theorem gives_step_separator {expectation : Expectation} (isOpen : expectation.IsOpen .program)
    (role : word.role = .separator) :
    Gives (step .program progress word rest expectation) fun after =>
      after.1 = .nothing ∧ (∃ others, after.2.command = some (word.text, others)) ∨
        rest = [] ∧ after.1 = .anything ∧ after.2.command = progress.command := by
  have reads (progress : Progress) : Gives (readWord .program progress word rest) fun after =>
      after.1 = .nothing ∧ (∃ others, after.2.command = some (word.text, others)) ∨
        rest = [] ∧ after.1 = .anything ∧ after.2.command = progress.command := by
    rw [readWord, role]
    dsimp only
    split
    · rename_i last
      exact Gives.ok (.inr ⟨List.isEmpty_iff.1 last, rfl, rfl⟩)
    · exact Gives.ok (.inl ⟨rfl, _, rfl⟩)
  cases expectation with
  | anything => exact reads progress
  | value flags parameter =>
      rw [step, role]
      exact Gives.error _ _
  | moreValues parameter values =>
      rw [step, role, if_neg (by simp)]
      split
      · exact Gives.error _ _
      · refine Gives.bind (ends_completeAll isOpen.1 _ : Ends False _ _).gives ?_
        rintro _ ⟨rfl, -⟩
        exact reads _
  | sourceEnd => exact absurd rfl isOpen
  | sourceText => exact absurd rfl isOpen
  | nothing => cases isOpen

/-- The command that the program finds is named by its first free word. -/
theorem gives_readWords_program {expectation : Expectation} {words : List Word}
    (isOpen : expectation.IsOpen .program) (noCommand : progress.command = none)
    (notSource : ∀ word ∈ words, ∀ other, word.Names other → other ≠ .source)
    (separators : ∀ word ∈ words, word.role = .separator → word.text = separatorText) :
    Gives (readWords .program expectation progress words) fun outer =>
      ∀ name others, outer.command = some (name, others) → name ≠ separatorText →
        ∃ front rest, words = front ++ { text := name, role := .plain } :: rest ∧
          others = rest.map Word.text ∧ IsFront expectation.claim front ∧
          Reads front (expectation, progress) outer := by
  induction words generalizing expectation progress with
  | nil =>
      intro outer finished name others found
      rw [((ends_finish isOpen : Ends False _ _).gives outer finished).1, noCommand] at found
      cases found
  | cons word rest inductionHypothesis =>
      by_cases separates : word.role = .separator
      · refine Gives.bind (gives_step_separator isOpen separates) ?_
        rintro ⟨next, after⟩ (⟨rfl, others, found⟩ | ⟨rfl, rfl, found⟩) outer result name given
          isName
        · obtain rfl : after = outer :=
            Except.ok.inj ((readWords_nothing .program after rest).symm.trans result)
          cases found.symm.trans isName
          exact fun other => absurd (separators word List.mem_cons_self separates) other
        · obtain rfl := Except.ok.inj result
          rw [found, noCommand] at isName
          cases isName
      · by_cases free : word.role = .plain ∧ expectation.claim = .none
        · obtain rfl := eq_anything_of_isOpen isOpen free.2
          obtain ⟨text, role⟩ := word
          obtain rfl : role = .plain := free.1
          rw [readWords_commandWord]
          refine Gives.ok ?_
          rintro name others found -
          cases found
          exact ⟨[], rest, rfl, rfl, .nil, reads_command progress _⟩
        · have bound : word.role = .plain → expectation.claim ≠ .none := not_and.1 free
          have ends : Ends True (step .program progress word rest expectation) _ :=
            ends_step isOpen (.inr ⟨separates, bound⟩) (notSource word List.mem_cons_self)
              fun _ => trivial
          refine Gives.bind ends.gives ?_
          rintro ⟨next, after⟩ (⟨-, flagged⟩ | ⟨isOpenNext, follows⟩)
          · exact gives_readWords_flag flagged rest
          · intro outer result name others found isName
            obtain ⟨front, behind, rfl, same, isFront, reads⟩ :=
              inductionHypothesis isOpenNext (follows.command.trans noCommand)
                (fun other member => notSource other (List.mem_cons_of_mem _ member))
                (fun other member => separators other (List.mem_cons_of_mem _ member))
                outer result name others found isName
            rw [follows.claim] at isFront
            exact ⟨word :: front, behind, rfl, same, .cons separates bound isFront,
              follows.reads reads⟩

end Words

end Roster.CommandLine
