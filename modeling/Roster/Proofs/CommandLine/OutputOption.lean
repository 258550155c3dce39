import Roster.Proofs.CommandLine.OneSource

/-!
# The output option

The output of an export is what the last of its output options names, whether the value is
attached to the option or stands behind it. Of a reading only little matters for that: the
output that is set, and whether the next word is expected as its value. A step of the reading
changes this view as the word tells, whatever else it does.
-/

namespace Roster.CommandLine

/-- The last output option among words gives a value, which is attached to its name or is the
word behind it. -/
inductive GivesOutput : List Word → String → Prop where
  | attached (front : List Word) {back : List Word} {word : Word} {isShort : Bool}
      {text : List Char} (role : word.role = .option .output isShort (some text))
      (last : ∀ other ∈ back, ¬other.Names .output) :
      GivesOutput (front ++ word :: back) (String.ofList text)
  | behind (front : List Word) {back : List Word} {word value : Word} {isShort : Bool}
      (role : word.role = .option .output isShort none)
      (last : ∀ other ∈ value :: back, ¬other.Names .output) :
      GivesOutput (front ++ word :: value :: back) value.text

/-- A word in front changes nothing about the last output option. -/
theorem GivesOutput.cons {words : List Word} {value : String} (gives : GivesOutput words value)
    (word : Word) : GivesOutput (word :: words) value := by
  cases gives with
  | attached front role last => exact .attached (word :: front) role last
  | behind front role last => exact .behind (word :: front) role last

/-- The output as far as words were read. -/
structure OutputView where
  /-- Whether the next word is the value of the output. -/
  awaited : Bool
  value : Option String

namespace OutputView

/-- The output behind one more word. -/
def track (view : OutputView) (word : Word) : OutputView :=
  match word.role with
  | .option .output _ (some text) =>
    { awaited := false, value := some (String.ofList text) }
  | .option .output _ none => { view with awaited := true }
  | _ => if view.awaited then { awaited := false, value := some word.text } else view

/-- The output that a state of the reading shows. -/
def ofState (state : Expectation × Progress) : OutputView where
  awaited := match state.1 with
    | .value _ .output => true
    | _ => false
  value := state.2.options.output

variable {view : OutputView} {word : Word} {words : List Word} {value : String}

theorem track_of_not_names (noName : ¬word.Names .output) (rested : view.awaited = false) :
    view.track word = view := by
  unfold track
  split
  · exact absurd ⟨_, _, ‹_›⟩ noName
  · exact absurd ⟨_, _, ‹_›⟩ noName
  · rw [rested, if_neg Bool.false_ne_true]

/-- Words without the option leave an output alone whose value is not expected. -/
theorem foldl_track_of_not_names (noName : ∀ word ∈ words, ¬word.Names .output)
    (rested : view.awaited = false) : words.foldl track view = view := by
  induction words with
  | nil => rfl
  | cons word rest inductionHypothesis =>
      rw [List.foldl_cons, track_of_not_names (noName word List.mem_cons_self) rested]
      exact inductionHypothesis fun other member => noName other (List.mem_cons_of_mem _ member)

/-- Behind words that give an output, it is the one that the view shows. -/
theorem value_foldl_track (gives : GivesOutput words value) :
    (words.foldl track view).value = some value := by
  cases gives with
  | attached front role last =>
      rw [List.foldl_append, List.foldl_cons, foldl_track_of_not_names last]
      · simp [track, role]
      · simp [track, role]
  | @behind front back word value isShort role last =>
      have noName := last value List.mem_cons_self
      have taken (view : OutputView) : (view.track word).track value =
          { awaited := false, value := some value.text } := by
        have awaited : (view.track word).awaited = true := by simp [track, role]
        rw [track]
        split
        · exact absurd ⟨_, _, ‹_›⟩ noName
        · exact absurd ⟨_, _, ‹_›⟩ noName
        · rw [awaited, if_pos rfl]
      rw [List.foldl_append, List.foldl_cons, List.foldl_cons, taken, foldl_track_of_not_names
        (fun other member => last other (List.mem_cons_of_mem _ member)) rfl]

/-- Words that name the option give an output, unless its value is still expected. -/
theorem exists_givesOutput (named : ∃ word ∈ words, word.Names .output)
    (rested : (words.foldl track view).awaited = false) : ∃ value, GivesOutput words value := by
  induction words generalizing view with
  | nil => simp at named
  | cons word rest inductionHypothesis =>
      by_cases again : ∃ other ∈ rest, other.Names .output
      · obtain ⟨value, gives⟩ := inductionHypothesis again rested
        exact ⟨value, gives.cons word⟩
      · have noName : ∀ other ∈ rest, ¬other.Names .output :=
          fun other member names => again ⟨other, member, names⟩
        obtain ⟨isShort, attached, role⟩ : word.Names .output := by simpa [again] using named
        cases attached with
        | some text => exact ⟨_, .attached [] role noName⟩
        | none =>
            cases rest with
            | nil => simp [track, role] at rested
            | cons value back => exact ⟨_, .behind [] role noName⟩

end OutputView

open OutputView (ofState)

/-- An expectation that can arise in a scope: as many values are expected as the parameter
takes, without flags that are still to be read, and only the program leaves all further words
to its command. -/
def Expectation.Fits (scope : Scope) : Expectation → Prop
  | .value flags parameter => flags = [] ∧ parameter.arity = .one
  | .moreValues parameter _ => parameter.arity = .some
  | .nothing => scope = .program
  | _ => True

/-- A step over a word changes the view of the output as the word tells. -/
structure Tracks (scope : Scope) (word : Word) (before after : Expectation × Progress) :
    Prop where
  fits : after.1.Fits scope
  view : ofState after = (ofState before).track word

/-- Setting another parameter leaves the output alone. -/
theorem output_set (options : Options) {parameter : Parameter} (values : List String)
    (other : parameter ≠ .output) : (options.set parameter values).output = options.output := by
  cases parameter <;> first | rfl | exact absurd rfl other

section Words

variable {scope : Scope} {progress : Progress} {parameter : Parameter} {word : Word}
  {rest : List Word}

/-- An option without a value attached to it is tracked. -/
theorem gives_tracks_readOption {isShort : Bool}
    (role : word.role = .option parameter isShort none) :
    Gives (readOption scope progress [] parameter) (Tracks scope word (.anything, progress)) := by
  unfold readOption
  split
  · rename_i isFlag
    exact Gives.bind_none (gives_completeAll_flag (List.forall_mem_nil _) (.inl isFlag) _)
  · rename_i one
    refine Gives.ok ⟨⟨rfl, one⟩, ?_⟩
    cases parameter <;> simp [ofState, OutputView.track, role]
  · rename_i several
    refine Gives.ok ⟨several, ?_⟩
    obtain rfl : parameter = .nodes := by cases parameter <;> first | rfl | cases several
    simp [ofState, OutputView.track, role]

/-- An option with a text attached to it is tracked, unless it is a flag. -/
theorem gives_tracks_readAttached {isShort : Bool} {text : List Char}
    (role : word.role = .option parameter isShort (some text)) :
    Gives (readAttached scope progress [] parameter isShort text) fun after =>
      after.1.HoldsFlag ∨ Tracks scope word (.anything, progress) after := by
  by_cases isFlag : parameter.arity = .none
  · intro after result
    exact .inl (gives_readAttached_flag (List.forall_mem_nil _) (.inl isFlag) isShort text after
      result)
  · rw [readAttached_of_valued isFlag]
    refine Gives.bind (ends_completeAll isFlag _ : Ends True _ _).gives ?_
    rintro _ ⟨rfl, -⟩
    refine Gives.ok (.inr ⟨trivial, ?_⟩)
    cases parameter <;> simp [ofState, OutputView.track, role, Options.set]

/-- A word that names no option leaves the view as it is. -/
theorem tracks_of_not_names {after : Expectation × Progress} (fits : after.1.Fits scope)
    (noName : ¬word.Names .output) (same : ofState after = ofState (.anything, progress)) :
    Tracks scope word (.anything, progress) after :=
  ⟨fits, by rw [same, OutputView.track_of_not_names noName rfl]⟩

/-- A word that is read for itself is tracked, unless it is a flag. -/
theorem gives_tracks_readWord :
    Gives (readWord scope progress word rest) fun after =>
      after.1.HoldsFlag ∨ Tracks scope word (.anything, progress) after := by
  cases role : word.role with
  | option parameter isShort attached =>
      unfold readWord
      rw [role]
      cases attached with
      | none => exact fun after result => .inr (gives_tracks_readOption role after result)
      | some text => exact gives_tracks_readAttached role
  | unknownOption =>
      unfold readWord
      rw [role]
      exact Gives.ok (.inr (tracks_of_not_names trivial (by simp [Word.Names, role]) rfl))
  | plain =>
      have noName : ¬word.Names .output := by simp [Word.Names, role]
      unfold readWord
      rw [role]
      dsimp only
      split
      · exact Gives.ok (.inr (tracks_of_not_names rfl noName rfl))
      · split
        · exact Gives.ok (.inr (tracks_of_not_names trivial noName rfl))
        · refine Gives.bind (ends_completeAll (by decide) _ : Ends True _ _).gives ?_
          rintro _ ⟨rfl, -⟩
          exact Gives.ok (.inr (tracks_of_not_names trivial noName rfl))
  | separator =>
      have noName : ¬word.Names .output := by simp [Word.Names, role]
      unfold readWord
      rw [role]
      dsimp only
      split
      · split
        · exact Gives.ok (.inr (tracks_of_not_names trivial noName rfl))
        · exact Gives.ok (.inr (tracks_of_not_names rfl noName rfl))
      · split
        · exact Gives.ok (.inr (tracks_of_not_names trivial noName rfl))
        · exact Gives.ok (.inr (tracks_of_not_names trivial noName rfl))

/-- A step over a word is tracked, unless the word is a flag. -/
theorem gives_tracks_step {expectation : Expectation} (fits : expectation.Fits scope)
    (noName : scope = .program → ¬word.Names .output) :
    Gives (step scope progress word rest expectation) fun after =>
      after.1.HoldsFlag ∨ Tracks scope word (expectation, progress) after := by
  cases expectation with
  | anything => exact gives_tracks_readWord
  | value flags parameter =>
      obtain ⟨rfl, one⟩ := fits
      rw [step]
      split
      · rename_i role
        refine Gives.bind (ends_completeAll (by simp [one]) _ : Ends True _ _).gives ?_
        rintro _ ⟨rfl, -⟩
        refine Gives.ok (.inr ⟨trivial, ?_⟩)
        cases parameter <;> simp [ofState, OutputView.track, role, Options.set]
      · exact Gives.error _ _
  | moreValues parameter values =>
      have several : parameter.arity = .some := fits
      have other : parameter ≠ .output := by
        rintro rfl
        cases several
      rw [step]
      split
      · rename_i role
        refine Gives.ok (.inr ⟨several, ?_⟩)
        exact (OutputView.track_of_not_names (by simp [Word.Names, role]) rfl).symm
      · split
        · exact Gives.error _ _
        · refine Gives.bind (ends_completeAll (by simp [several]) _ : Ends True _ _).gives ?_
          rintro _ ⟨rfl, -⟩
          refine fun after result => (gives_tracks_readWord after result).imp_right ?_
          rintro ⟨fitsAfter, tracked⟩
          refine ⟨fitsAfter, ?_⟩
          rw [tracked, ofState, ofState, output_set _ _ other]
  | sourceEnd =>
      rw [step]
      split
      · rename_i role
        refine Gives.ok (.inr ⟨trivial, ?_⟩)
        exact (OutputView.track_of_not_names (by simp [Word.Names, role]) rfl).symm
      · exact fun after result => (gives_tracks_readWord after result).imp_right
          fun tracks => ⟨tracks.fits, tracks.view⟩
  | sourceText =>
      exact fun after result => (gives_tracks_readWord after result).imp_right
        fun tracks => ⟨tracks.fits, tracks.view⟩
  | nothing =>
      exact Gives.ok (.inr ⟨fits, (OutputView.track_of_not_names (noName fits) rfl).symm⟩)

/-- Where the words end, the output is left as it is, and no value is expected for it. -/
theorem gives_output_finish {expectation : Expectation} (fits : expectation.Fits scope) :
    Gives (finish scope progress expectation) fun final =>
      ofState (expectation, progress) = { awaited := false, value := final.options.output } := by
  cases expectation with
  | value flags parameter => exact Gives.error _ _
  | moreValues parameter values =>
      have several : parameter.arity = .some := fits
      have other : parameter ≠ .output := by
        rintro rfl
        cases several
      rw [finish]
      split
      · exact Gives.error _ _
      · refine fun final result => ?_
        obtain ⟨rfl, -⟩ :=
          (ends_completeAll (by simp [several]) _ : Ends True _ _).gives final result
        rw [ofState, output_set _ _ other]
  | _ => exact Gives.ok rfl

/-- Reading words sets the output that is tracked over them, and ends where no value is
expected for it. -/
theorem gives_output_readWords {expectation : Expectation} {words : List Word}
    (fits : expectation.Fits scope)
    (noName : scope = .program → ∀ word ∈ words, ¬word.Names .output) :
    Gives (readWords scope expectation progress words) fun final =>
      words.foldl OutputView.track (ofState (expectation, progress)) =
        { awaited := false, value := final.options.output } := by
  induction words generalizing expectation progress with
  | nil => exact gives_output_finish fits
  | cons word rest inductionHypothesis =>
      refine Gives.bind (gives_tracks_step fits fun inProgram =>
        noName inProgram word List.mem_cons_self) ?_
      rintro ⟨next, after⟩ (flagged | ⟨fitsNext, tracked⟩)
      · exact gives_readWords_flag flagged rest
      · rw [List.foldl_cons, ← tracked]
        exact inductionHypothesis fitsNext fun inProgram other member =>
          noName inProgram other (List.mem_cons_of_mem _ member)

end Words

/-- An accepted argument list sets the output that is given behind the name of its command, and
gives one if the option occurs there. -/
theorem output_of_ofArguments {arguments : List String} {options : Options} {command : Command}
    (asked : Invocation.ofArguments arguments = .ok { options, command := some command }) :
    ∃ front others words, arguments = front ++ command.name :: others ∧ IsLeading front ∧
      wordsOfArguments (.command command) others = .ok words ∧
      (Occurs (.command command) .output others → ∃ value, GivesOutput words value) ∧
      ∀ value, GivesOutput words value → options.output = some value := by
  obtain ⟨programWords, words, others, outer, inner, areWords, isRead, found, -, areInner,
    innerRead, -, rfl⟩ := exists_parts_of_ofArguments asked
  obtain ⟨front, frontWords, split, areFront, isFront, -⟩ := exists_leading areWords isRead found
  have anythingFits : Expectation.anything.Fits (.command command) := trivial
  have tracked := gives_output_readWords anythingFits (by simp) inner innerRead
  refine ⟨front, others, words, split, ⟨frontWords, areFront, isFront⟩, areInner, ?_, ?_⟩
  · intro occurs
    exact OutputView.exists_givesOutput
      (((gives_areWords _ _ words areInner).names .output).2 occurs) (by rw [tracked])
  · intro value gives
    rw [← OutputView.value_foldl_track gives, tracked]

end Roster.CommandLine
