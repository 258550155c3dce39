import Roster.CommandLine.Run
import Roster.Proofs.Outcome

/-!
# Plain words behind options

How an argument list is read whose options are spelled out and whose values are plain. A plain
argument is one without a hyphen in front, whatever else it may look like. An option takes the
plain words behind it, and a plain word that no option takes is the source.
-/

namespace Roster.CommandLine

/-- An argument that no hyphen makes an option. -/
def IsPlain (argument : String) : Prop :=
  argument.toList.head? ≠ some '-'

theorem roleOf_of_isPlain (scope : Scope) {argument : String} (plain : IsPlain argument) :
    roleOf scope argument = .ok .plain := by
  have noHyphen : (argument.toList.head? != some '-') = true := bne_iff_ne.2 plain
  simp [roleOf, noHyphen]

theorem IsPlain.ne_separator {argument : String} (plain : IsPlain argument) :
    argument ≠ separatorText := by
  rintro rfl
  exact plain (by decide)

/-- A text with others behind it is plain if it is. -/
theorem isPlain_intercalate {first : String} (nonempty : first.toList ≠ [])
    (plain : IsPlain first) (others : List String) :
    IsPlain (" ".intercalate (first :: others)) := by
  obtain ⟨c, rest, begins⟩ := List.exists_cons_of_ne_nil nonempty
  rw [IsPlain, begins] at plain
  rw [IsPlain, String.toList_intercalate]
  cases others with
  | nil => simpa [begins] using plain
  | cons second more => simpa [begins, List.intercalate_cons_cons] using plain

/-- Arguments as plain words. -/
def plainWords (arguments : List String) : List Word :=
  arguments.map fun text => { text, role := .plain }

section Words

variable {scope : Scope} {others : List String} {words : List Word}

/-- The first word has the role of the first argument. -/
theorem wordsOfArguments_cons {argument : String} {role : Role}
    (notSeparator : argument ≠ separatorText) (isRole : roleOf scope argument = .ok role)
    (areWords : wordsOfArguments scope others = .ok words) :
    wordsOfArguments scope (argument :: others) = .ok ({ text := argument, role } :: words) := by
  rw [wordsOfArguments, if_neg notSeparator, isRole, areWords]
  rfl

/-- Plain arguments are plain words. -/
theorem wordsOfArguments_plain_append {arguments : List String}
    (plain : ∀ argument ∈ arguments, IsPlain argument)
    (areWords : wordsOfArguments scope others = .ok words) :
    wordsOfArguments scope (arguments ++ others) = .ok (plainWords arguments ++ words) := by
  induction arguments with
  | nil => exact areWords
  | cons argument rest inductionHypothesis =>
      have isPlain := plain argument List.mem_cons_self
      exact wordsOfArguments_cons isPlain.ne_separator (roleOf_of_isPlain scope isPlain)
        (inductionHypothesis fun other member => plain other (List.mem_cons_of_mem _ member))

/-- The words are the arguments. -/
theorem texts_wordsOfArguments (scope : Scope) (arguments : List String) :
    Gives (wordsOfArguments scope arguments) fun words => words.map Word.text = arguments := by
  induction arguments with
  | nil => exact Gives.ok rfl
  | cons argument others inductionHypothesis =>
      rw [wordsOfArguments]
      split
      · exact Gives.ok (by simp [Function.comp_def])
      · refine Gives.bind_any fun role => Gives.bind inductionHypothesis fun words texts => ?_
        exact Gives.ok (by simp [texts])

end Words

section Reading

variable {scope : Scope} {progress : Progress} {options : Options} {parameter : Parameter}
  {isShort : Bool} {name value : String} {rest : List Word}

/-- Words behind the name of a command are left to the command. -/
theorem readWords_nothing (scope : Scope) (progress : Progress) (words : List Word) :
    readWords scope .nothing progress words = .ok progress := by
  induction words with
  | nil => rfl
  | cons word others inductionHypothesis => exact inductionHypothesis

/-- An option that takes one value takes the plain word behind it. -/
theorem readWords_option_value (takesOne : parameter.arity = .one)
    (completed : complete scope progress.options parameter [value] = .ok options) :
    readWords scope .anything progress
        ({ text := name, role := .option parameter isShort none } ::
          { text := value, role := .plain } :: rest) =
      readWords scope .anything { progress with options } rest := by
  simp [readWords, step, readWord, readOption, takesOne, Progress.completeAll, completed, bind,
    Except.bind, pure, Except.pure]

/-- Plain words are further values of an option that takes several. -/
theorem readWords_moreValues (values more : List String) :
    readWords scope (.moreValues parameter values) progress (plainWords more ++ rest) =
      readWords scope (.moreValues parameter (values ++ more)) progress rest := by
  induction more generalizing values with
  | nil => simp [plainWords]
  | cons value others inductionHypothesis =>
      have next := inductionHypothesis (values ++ [value])
      rw [List.append_assoc, List.singleton_append] at next
      exact next

/-- An option that takes several values takes the plain words up to the next option. -/
theorem readWords_option_values (takesSome : parameter.arity = .some) {values : List String}
    (nonempty : values ≠ []) {word : Word} (ends : word.role ≠ .plain)
    (completed : complete scope progress.options parameter values = .ok options) :
    readWords scope .anything progress
        ({ text := name, role := .option parameter isShort none } ::
          (plainWords values ++ word :: rest)) =
      readWords scope .anything { progress with options } (word :: rest) := by
  have taken := @readWords_moreValues scope progress parameter (word :: rest) [] values
  have filled : values.isEmpty = false := by simpa using nonempty
  rw [List.nil_append] at taken
  simp [readWords, step, readWord, readOption, takesSome, taken, ends, filled,
    Progress.completeAll, completed, bind, Except.bind, pure, Except.pure]

/-- A plain word that no option takes is the source. -/
theorem readWords_source {command : Command} (free : progress.options.source = none)
    {word : Word} (ends : word.role ≠ .separator)
    (completed : complete (.command command) progress.options .source [value] = .ok options) :
    readWords (.command command) .anything progress
        ({ text := value, role := .plain } :: word :: rest) =
      readWords (.command command) .anything { progress with options } (word :: rest) := by
  simp [readWords, step, readWord, free, ends, Progress.completeAll, completed, bind,
    Except.bind, pure, Except.pure]

end Reading

theorem isPlain_commandName (command : Command) : IsPlain command.name := by
  unfold IsPlain
  cases command <;> decide

theorem ofName?_commandName (command : Command) : Command.ofName? command.name = some command := by
  cases command <;> rfl

/-- In front of its own arguments the name of a command asks for the command. -/
theorem readScope_command (command : Command) {arguments : List String} {words : List Word}
    (areWords : wordsOfArguments .program arguments = .ok words) :
    readScope .program {} (command.name :: arguments) =
      .ok { options := {}, extras := [], command := some (command.name, arguments) } := by
  have isPlain := isPlain_commandName command
  have all := wordsOfArguments_cons isPlain.ne_separator (roleOf_of_isPlain .program isPlain)
    areWords
  have texts := texts_wordsOfArguments .program arguments words areWords
  rw [readScope, all]
  simp [readWords, step, readWord, readWords_nothing, Progress.start, texts, Except.mapError, bind,
    Except.bind]

/-- A command with its own arguments is invoked with the options that these set. -/
theorem ofArguments_command {command : Command} {arguments : List String} {words : List Word}
    {options : Options} (outer : wordsOfArguments .program arguments = .ok words)
    (inner : readScope (.command command) {} arguments = .ok (.start options)) :
    Invocation.ofArguments (command.name :: arguments) =
      .ok { options, command := some command } := by
  simp [Invocation.ofArguments, readScope_command command outer, ofName?_commandName, inner,
    Progress.start, Invocation.checked, bind, Except.bind]

end Roster.CommandLine
