import Roster.Proofs.CommandLine.SourceSelection
import Roster.Proofs.CommandLine.WordReading

/-!
# One source

A command reads one source. The arguments that are accepted give at most one, so that it does
not matter in which order the program looks for the sources; and arguments with two of the
options that name a source are refused, whatever stands between them.
-/

namespace Roster.CommandLine

open Roster.Storage (Store)

/-- An option occurs among arguments, in any spelling. Behind the separator there are no
options. -/
def Occurs (scope : Scope) (parameter : Parameter) (arguments : List String) : Prop :=
  ∃ argument ∈ arguments.takeWhile (· ≠ separatorText),
    ∃ isShort attached, roleOf scope argument = .ok (.option parameter isShort attached)

/-- Whether an argument names an option. -/
def namesOption (scope : Scope) (parameter : Parameter) (argument : String) : Bool :=
  match roleOf scope argument with
  | .ok (.option named _ _) => named = parameter
  | _ => false

section Arguments

variable {scope : Scope} {parameter : Parameter}

theorem namesOption_iff {argument : String} :
    namesOption scope parameter argument = true ↔
      ∃ isShort attached, roleOf scope argument = .ok (.option parameter isShort attached) := by
  unfold namesOption
  split
  · rename_i named isShort attached role
    rw [decide_eq_true_iff]
    constructor
    · rintro rfl
      exact ⟨isShort, attached, role⟩
    · rintro ⟨_, _, same⟩
      cases role.symm.trans same
      rfl
  · rename_i other
    refine iff_of_false Bool.false_ne_true ?_
    rintro ⟨isShort, attached, same⟩
    exact other _ _ _ same

instance (arguments : List String) : Decidable (Occurs scope parameter arguments) :=
  decidable_of_iff
    ((arguments.takeWhile (· ≠ separatorText)).any (namesOption scope parameter) = true)
    (by simp only [List.any_eq_true, namesOption_iff, Occurs])

theorem mem_options_of_mem_optionNames {name : String}
    (named : (name, parameter) ∈ scope.optionNames) : parameter ∈ scope.options := by
  obtain ⟨other, isOption, inNames⟩ := List.mem_flatMap.1 named
  obtain ⟨_, -, same⟩ := List.mem_map.1 inNames
  cases same
  exact isOption

theorem mem_optionNames_of_option? {name : List Char}
    (found : scope.option? name = some parameter) :
    (String.ofList name, parameter) ∈ scope.optionNames := by
  obtain ⟨front, back, split, -⟩ := List.lookup_eq_some_iff.1 found
  rw [split]
  simp

theorem mem_options_of_mem_abbreviated {text : List Char} {name : String}
    {attached : Option (List Char)}
    (candidate : (name, parameter, attached) ∈ abbreviated scope text) :
    parameter ∈ scope.options := by
  unfold abbreviated at candidate
  split at candidate <;>
    obtain ⟨⟨other, given⟩, named, same⟩ := List.mem_filterMap.1 candidate <;>
    dsimp only at same <;> split at same <;> cases same <;>
    exact mem_options_of_mem_optionNames named

theorem mem_options_of_spelledOut {text : List Char} {isShort : Bool}
    {attached : Option (List Char)}
    (spelled : spelledOut? scope text = some (.option parameter isShort attached)) :
    parameter ∈ scope.options := by
  unfold spelledOut? at spelled
  dsimp only at spelled
  split at spelled <;> cases spelled
  · rename_i found
    exact mem_options_of_mem_optionNames (mem_optionNames_of_option? found)
  · rename_i found
    exact mem_options_of_mem_optionNames (mem_optionNames_of_option? found)

/-- The options of an argument are those of its scope, and no argument in front of the
separator is taken for it. -/
theorem gives_roleOf (scope : Scope) (argument : String) :
    Gives (roleOf scope argument) fun role =>
      role ≠ .separator ∧ ∀ parameter isShort attached,
        role = .option parameter isShort attached → parameter ∈ scope.options := by
  unfold roleOf
  dsimp only
  split
  · exact Gives.ok ⟨by simp, by simp⟩
  · split
    · rename_i role spelled
      refine Gives.ok ⟨?_, ?_⟩
      · rintro rfl
        unfold spelledOut? at spelled
        dsimp only at spelled
        split at spelled <;> cases spelled
      · rintro parameter isShort attached rfl
        exact mem_options_of_spelledOut spelled
    · split
      · split <;> exact Gives.ok ⟨by simp, by simp⟩
      · rename_i name candidate value only
        have isCandidate : (name, candidate, value) ∈ abbreviated scope argument.toList :=
          only ▸ List.mem_singleton_self _
        refine Gives.ok ⟨by simp, ?_⟩
        rintro parameter isShort attached same
        cases same
        exact mem_options_of_mem_abbreviated isCandidate
      · exact Gives.error _ _

theorem mem_options_of_occurs {arguments : List String}
    (occurs : Occurs scope parameter arguments) : parameter ∈ scope.options := by
  obtain ⟨argument, -, isShort, attached, role⟩ := occurs
  exact (gives_roleOf scope argument _ role).2 parameter isShort attached rfl

/-- The words of arguments name the options that occur among them. -/
structure AreWords (scope : Scope) (arguments : List String) (words : List Word) : Prop where
  names : ∀ parameter, (∃ word ∈ words, word.Names parameter) ↔ Occurs scope parameter arguments
  separators : ∀ word ∈ words, word.role = .separator → word.text = separatorText

/-- The words of arguments name only the options of their scope. -/
theorem AreWords.mem_options {arguments : List String} {words : List Word}
    (areWords : AreWords scope arguments words) {word : Word} (member : word ∈ words)
    (names : word.Names parameter) : parameter ∈ scope.options :=
  mem_options_of_occurs ((areWords.names parameter).1 ⟨word, member, names⟩)

theorem source_not_mem_options (scope : Scope) : Parameter.source ∉ scope.options := by
  cases scope with
  | program => decide
  | command given => cases given <;> decide

/-- The source is no option. -/
theorem AreWords.ne_source {arguments : List String} {words : List Word}
    (areWords : AreWords scope arguments words) :
    ∀ word ∈ words, ∀ other, word.Names other → other ≠ .source := by
  rintro word member _ names rfl
  exact source_not_mem_options scope (areWords.mem_options member names)

theorem gives_areWords (scope : Scope) (arguments : List String) :
    Gives (wordsOfArguments scope arguments) (AreWords scope arguments) := by
  induction arguments with
  | nil => exact Gives.ok ⟨fun parameter => by simp [Occurs], by simp⟩
  | cons argument others inductionHypothesis =>
      rw [wordsOfArguments]
      split
      · rename_i separates
        refine Gives.ok ⟨fun parameter => ?_, ?_⟩
        · simp [Occurs, separates, Word.Names]
        · simp [separates]
      · rename_i noSeparator
        refine Gives.bind (fun role isRole => And.intro isRole (gives_roleOf scope argument role
          isRole)) ?_
        rintro role ⟨isRole, other, -⟩
        refine Gives.bind inductionHypothesis fun words areWords => Gives.ok ⟨?_, ?_⟩
        · intro parameter
          have first : Occurs scope parameter (argument :: others) ↔
              (∃ isShort attached, role = .option parameter isShort attached) ∨
                Occurs scope parameter others := by
            simp [Occurs, noSeparator, isRole]
          rw [first, ← areWords.names parameter]
          simp [Word.Names]
        · intro word member separates
          rcases List.mem_cons.1 member with rfl | isOther
          · exact absurd separates other
          · exact areWords.separators word isOther separates

/-- Arguments in front of the name of a command: options of the program with the arguments
that they claim. -/
def IsLeading (front : List String) : Prop :=
  ∃ words, wordsOfArguments .program front = .ok words ∧ IsFront .none words

/-- The first words are those of the first arguments. -/
theorem wordsOfArguments_prefix {arguments : List String} {front rest : List Word}
    (areWords : wordsOfArguments scope arguments = .ok (front ++ rest)) :
    wordsOfArguments scope (front.map Word.text) = .ok front := by
  induction front generalizing arguments with
  | nil => rfl
  | cons word front inductionHypothesis =>
      cases arguments with
      | nil => cases areWords
      | cons argument others =>
          rw [wordsOfArguments] at areWords
          split at areWords
          · rename_i separates
            have same := Except.ok.inj areWords
            rw [List.cons_append, List.cons.injEq] at same
            obtain ⟨rfl, others⟩ := same
            obtain ⟨first, second, -, firstWords, -⟩ := List.map_eq_append_iff.1 others
            rw [List.map_cons, wordsOfArguments, if_pos separates, ← firstWords]
            simp
          · rename_i noSeparator
            obtain ⟨role, isRole, whole⟩ := bind_eq_ok.1 areWords
            obtain ⟨words, otherWords, same⟩ := bind_eq_ok.1 whole
            have same := Except.ok.inj same
            rw [List.cons_append, List.cons.injEq] at same
            obtain ⟨rfl, rfl⟩ := same
            exact wordsOfArguments_cons noSeparator isRole (inductionHypothesis otherWords)

/-- Behind leading arguments, the words are those of the leading arguments, the name of the
command, and its own. -/
theorem gives_words_leading {front : List String} {frontWords : List Word} {claimed : Arity}
    (areWords : wordsOfArguments scope front = .ok frontWords)
    (isFront : IsFront claimed frontWords) {name : String} (plain : IsPlain name)
    (others : List String) :
    Gives (wordsOfArguments scope (front ++ name :: others)) fun words =>
      ∃ rest, words = frontWords ++ { text := name, role := .plain } :: rest ∧
        rest.map Word.text = others := by
  induction front generalizing frontWords claimed with
  | nil =>
      obtain rfl := Except.ok.inj areWords
      rw [List.nil_append, wordsOfArguments, if_neg plain.ne_separator, roleOf_of_isPlain _ plain]
      refine Gives.ok_bind ?_
      refine Gives.bind (texts_wordsOfArguments scope others) fun rest texts => ?_
      exact Gives.ok ⟨rest, rfl, texts⟩
  | cons argument front inductionHypothesis =>
      rw [wordsOfArguments] at areWords
      rw [List.cons_append, wordsOfArguments]
      split at areWords
      · obtain rfl := Except.ok.inj areWords
        cases isFront with
        | cons inside _ _ => exact absurd rfl inside
      · rename_i noSeparator
        obtain ⟨role, isRole, whole⟩ := bind_eq_ok.1 areWords
        obtain ⟨words, otherWords, same⟩ := bind_eq_ok.1 whole
        obtain rfl := Except.ok.inj same
        cases isFront with
        | cons _ _ behind =>
            rw [if_neg noSeparator, isRole]
            refine Gives.ok_bind (Gives.bind (inductionHypothesis otherWords behind) ?_)
            rintro _ ⟨rest, rfl, texts⟩
            exact Gives.ok ⟨rest, rfl, texts⟩

end Arguments

/-- A source is given among the arguments of a command: by its option, or as a word that no
option claims. -/
inductive IsGiven (command : Command) (arguments : List String) : Parameter → Prop
  | byOption {parameter : Parameter} (isNamed : parameter ∈ namedSources)
      (occurs : Occurs (.command command) parameter arguments) :
      IsGiven command arguments parameter
  | byWord {words : List Word}
      (areWords : wordsOfArguments (.command command) arguments = .ok words)
      (free : freeWords .none words ≠ []) : IsGiven command arguments .source

/-- What is read behind a command gives exactly the sources among its arguments, if no source
is given before and no word is left over. -/
theorem Reads.gives_iff {command : Command} {others : List String} {words : List Word}
    {before inner : Progress} (reads : Reads words (.anything, before) inner)
    (areWords : wordsOfArguments (.command command) others = .ok words)
    (nothingGiven : ∀ parameter, before.options.gives parameter = false)
    (nothingLeft : inner.extras = []) (parameter : Parameter) :
    inner.options.gives parameter = true ↔ IsGiven command others parameter := by
  have names := (gives_areWords _ _ words areWords).names
  have noSource : before.options.source = none := by
    simpa [Options.gives] using nothingGiven .source
  have named : parameter ∈ namedSources →
      (inner.options.gives parameter = true ↔ Occurs (.command command) parameter others) := by
    intro isNamed
    rw [reads.named parameter isNamed, ← names parameter]
    simp [HasSource, nothingGiven]
  have taken : inner.options.source.toList = freeWords .none words := by
    simpa [noSource] using reads.source nothingLeft
  constructor
  · intro given
    by_cases isNamed : parameter ∈ namedSources
    · exact .byOption isNamed ((named isNamed).1 given)
    · obtain rfl : parameter = .source := by
        cases parameter <;> first | rfl | exact absurd (by decide) isNamed | cases given
      refine .byWord areWords fun none => ?_
      rw [none, Option.toList_eq_nil_iff] at taken
      simp [Options.gives, taken] at given
  · rintro (⟨isNamed, occurs⟩ | ⟨areOthers, free⟩)
    · exact (named isNamed).2 occurs
    · obtain rfl := Except.ok.inj (areWords.symm.trans areOthers)
      rw [← taken, Ne, Option.toList_eq_nil_iff] at free
      exact Option.isSome_iff_ne_none.2 free

/-- Leading words set no source. -/
theorem Reads.gives_leading {front : List Word} {outer : Progress}
    (reads : Reads front (.anything, .start {}) outer) (isFront : IsFront .none front)
    (named : ∀ word ∈ front, ∀ parameter, word.Names parameter → parameter ∈ Scope.program.options)
    (nothingLeft : outer.extras = []) (parameter : Parameter) :
    outer.options.gives parameter = false := by
  by_contra given
  rw [Bool.not_eq_false] at given
  by_cases isNamed : parameter ∈ namedSources
  · rcases (reads.named parameter isNamed).1 given with before | ⟨word, member, names⟩
    · rcases before with isGiven | isAwaited
      · cases parameter <;> cases isGiven
      · cases isAwaited
    · have apart : ∀ other ∈ namedSources, other ∉ Scope.program.options := by decide
      exact apart parameter isNamed (named word member parameter names)
  · obtain rfl : parameter = .source := by
      cases parameter <;> first | rfl | exact absurd (by decide) isNamed | cases given
    have none : outer.options.source.toList = [] := by
      simpa [Progress.start, isFront.freeWords_eq_nil] using reads.source nothingLeft
    rw [Option.toList_eq_nil_iff] at none
    simp [Options.gives, none] at given

/-- Reading the arguments of a scope is reading their words. -/
theorem readScope_eq_ok {scope : Scope} {options : Options} {arguments : List String}
    {progress : Progress} (read : readScope scope options arguments = .ok progress) :
    ∃ words, wordsOfArguments scope arguments = .ok words ∧
      readWords scope .anything (.start options) words = .ok progress := by
  obtain ⟨words, areWords, isRead⟩ := bind_eq_ok.1 read
  exact ⟨words, mapError_eq_ok.1 areWords, isRead⟩

/-- An invocation is accepted if no word is left over. -/
theorem checked_eq_ok {extras : List String} {invocation accepted : Invocation}
    (checked : invocation.checked extras = .ok accepted) :
    extras = [] ∧ accepted = invocation := by
  unfold Invocation.checked at checked
  split at checked
  · rename_i nothingLeft
    exact ⟨List.isEmpty_iff.1 nothingLeft, (Except.ok.inj checked).symm⟩
  · cases checked

theorem name_of_ofName? {name : String} {command : Command}
    (found : Command.ofName? name = some command) : command.name = name := by
  simpa using List.find?_some found

/-- An accepted argument list with a command was read in two parts, each to its end and with
no word left over: the arguments in front of the command, and those of the command. -/
theorem exists_parts_of_ofArguments {arguments : List String} {options : Options}
    {command : Command}
    (asked : Invocation.ofArguments arguments = .ok { options, command := some command }) :
    ∃ (programWords words : List Word) (others : List String) (outer inner : Progress),
      wordsOfArguments .program arguments = .ok programWords ∧
      readWords .program .anything (.start {}) programWords = .ok outer ∧
      outer.command = some (command.name, others) ∧ outer.extras = [] ∧
      wordsOfArguments (.command command) others = .ok words ∧
      readWords (.command command) .anything (.start outer.options) words = .ok inner ∧
      inner.extras = [] ∧ options = inner.options := by
  obtain ⟨outer, isOuter, whole⟩ := bind_eq_ok.1 asked
  obtain ⟨programWords, areWords, isRead⟩ := readScope_eq_ok isOuter
  cases found : outer.command with
  | none =>
      rw [found] at whole
      cases (checked_eq_ok whole).2
  | some given =>
      obtain ⟨name, others⟩ := given
      rw [found] at whole
      cases isCommand : Command.ofName? name with
      | none =>
          simp only [isCommand] at whole
          cases whole
      | some other =>
          simp only [isCommand] at whole
          obtain ⟨inner, isInner, checked⟩ := bind_eq_ok.1 whole
          obtain ⟨nothingLeft, same⟩ := checked_eq_ok checked
          cases same
          rw [List.append_eq_nil_iff] at nothingLeft
          obtain ⟨words, areInner, innerRead⟩ := readScope_eq_ok isInner
          rw [← name_of_ofName? isCommand] at found
          exact ⟨programWords, words, others, outer, inner, areWords, isRead, found,
            nothingLeft.1, areInner, innerRead, nothingLeft.2, rfl⟩

/-- The part in front of the command is leading, and its words are read as the program reads
them. -/
theorem exists_leading {arguments programArguments : List String} {programWords : List Word}
    {command : Command} {outer : Progress}
    (areWords : wordsOfArguments .program arguments = .ok programWords)
    (isRead : readWords .program .anything (.start {}) programWords = .ok outer)
    (found : outer.command = some (command.name, programArguments)) :
    ∃ front frontWords, arguments = front ++ command.name :: programArguments ∧
      wordsOfArguments .program front = .ok frontWords ∧ IsFront .none frontWords ∧
      Reads frontWords (.anything, .start {}) outer := by
  have wellFormed := gives_areWords _ _ programWords areWords
  have notSeparator := (isPlain_commandName command).ne_separator
  obtain ⟨frontWords, rest, rfl, rfl, isFront, reads⟩ := gives_readWords_program
    (Expectation.isOpen_anything _) rfl
    wellFormed.ne_source wellFormed.separators outer isRead _ _ found notSeparator
  have texts := texts_wordsOfArguments _ _ _ areWords
  refine ⟨frontWords.map Word.text, frontWords, ?_, wordsOfArguments_prefix areWords, isFront,
    reads⟩
  rw [← texts, List.map_append, List.map_cons]

/-- An accepted argument list gives exactly the sources among the arguments of its command,
and at most one. -/
theorem gives_iff_of_ofArguments {arguments : List String} {options : Options} {command : Command}
    (asked : Invocation.ofArguments arguments = .ok { options, command := some command }) :
    options.IsExclusive ∧ ∃ front others, arguments = front ++ command.name :: others ∧
      IsLeading front ∧
      ∀ parameter, options.gives parameter = true ↔ IsGiven command others parameter := by
  obtain ⟨programWords, words, others, outer, inner, areWords, isRead, found, outerLeft, areInner,
    innerRead, innerLeft, rfl⟩ := exists_parts_of_ofArguments asked
  obtain ⟨front, frontWords, split, areFront, isFront, outerReads⟩ :=
    exists_leading areWords isRead found
  have inProgram := gives_areWords _ _ frontWords areFront
  have nothingGiven := outerReads.gives_leading isFront
    (fun word member _ names => inProgram.mem_options member names) outerLeft
  have innerReads := gives_readWords_command (Expectation.isOpen_anything _)
    (gives_areWords _ _ words areInner).ne_source inner innerRead
  have single : outer.options.IsExclusive := outerReads.exclusive nofun
  exact ⟨innerReads.exclusive single, front, others, split, ⟨frontWords, areFront, isFront⟩,
    innerReads.gives_iff areInner nothingGiven innerLeft⟩

section Refused

variable {command : Command} {front others : List String}

/-- Only the flags take no values. -/
theorem mem_flags_of_arity {parameter : Parameter} (flag : parameter.arity = .none) :
    parameter ∈ [Parameter.help, .version] := by
  cases parameter <;> first | decide | cases flag

/-- Without flags, the program finds its command behind leading arguments, or refuses them
for a fault of usage. -/
theorem ends_readScope_program (leading : IsLeading front)
    (noFlag : ∀ flag ∈ [Parameter.help, .version], ¬Occurs .program flag front)
    (command : Command) (others : List String) :
    Ends False (readScope .program {} (front ++ command.name :: others)) fun outer =>
      outer.command = some (command.name, others) ∧ outer.options.IsExclusive := by
  obtain ⟨frontWords, areWords, isFront⟩ := leading
  have wellFormed := gives_areWords _ _ frontWords areWords
  refine Ends.bind (Ends.mapError (gives_words_leading areWords isFront
    (isPlain_commandName command) others) _) ?_
  rintro _ ⟨rest, rfl, rfl⟩
  have flagless : ∀ word ∈ frontWords, word.IsFlag → False := by
    rintro word member ⟨flag, names, arity⟩
    exact noFlag flag (mem_flags_of_arity arity) ((wellFormed.names flag).1 ⟨word, member, names⟩)
  refine (ends_readWords_front (Expectation.isOpen_anything _) isFront wellFormed.ne_source
    flagless _ rest).mono ?_
  rintro outer ⟨found, reads⟩
  exact ⟨found, reads.exclusive nofun⟩

/-- Without flags, the arguments of a command give the sources whose options occur, or they
are refused for a fault of usage. -/
theorem ends_readScope_command {options : Options} (exclusive : options.IsExclusive)
    (noFlag : ∀ flag ∈ [Parameter.help, .version], ¬Occurs (.command command) flag others) :
    Ends False (readScope (.command command) options others) fun inner =>
      inner.options.IsExclusive ∧ ∀ parameter ∈ namedSources,
        Occurs (.command command) parameter others → inner.options.gives parameter = true := by
  refine Ends.bind (Ends.mapError (gives_areWords (.command command) others) _)
    fun words wellFormed => ?_
  have flagless : ∀ word ∈ words, word.IsFlag → False := by
    rintro word member ⟨flag, names, arity⟩
    exact noFlag flag (mem_flags_of_arity arity) ((wellFormed.names flag).1 ⟨word, member, names⟩)
  refine (ends_readWords (Expectation.isOpen_anything _) wellFormed.ne_source
    flagless).mono fun inner reads => ?_
  refine ⟨reads.exclusive exclusive, fun parameter isNamed occurs => ?_⟩
  exact (reads.named parameter isNamed).2 (.inr ((wellFormed.names parameter).2 occurs))

/-- Arguments of a command with the options of two sources are refused. -/
theorem ofArguments_of_two_sources (leading : IsLeading front)
    (noFlag : ∀ flag ∈ [Parameter.help, .version],
      ¬Occurs .program flag front ∧ ¬Occurs (.command command) flag others)
    {first second : Parameter} (isFirst : first ∈ namedSources) (isSecond : second ∈ namedSources)
    (different : first ≠ second) (occursFirst : Occurs (.command command) first others)
    (occursSecond : Occurs (.command command) second others) :
    ∃ scope error,
      Invocation.ofArguments (front ++ command.name :: others) = .error (.usage scope error) := by
  have ends : Ends False (Invocation.ofArguments (front ++ command.name :: others)) fun _ =>
      False := by
    refine Ends.bind (ends_readScope_program leading (fun flag member => (noFlag flag member).1)
      command others) ?_
    rintro outer ⟨found, exclusive⟩
    simp only [found, ofName?_commandName]
    refine Ends.bind (ends_readScope_command exclusive fun flag member => (noFlag flag member).2) ?_
    rintro inner ⟨single, given⟩
    exact absurd (single first second (given first isFirst occursFirst)
      (given second isSecond occursSecond)) different
  cases asked : Invocation.ofArguments (front ++ command.name :: others) with
  | ok invocation => exact (ends.gives invocation asked).elim
  | error stop =>
      obtain ⟨scope, error, rfl⟩ := (ends.refuses stop asked).resolve_left id
      exact ⟨scope, error, rfl⟩

end Refused

/-- A run is refused: it ends with status 2, and writes nothing. -/
structure IsRefused (store : Store) (outcome : Outcome) : Prop where
  ending : outcome.ending = .exit 2
  output : outcome.output = ""
  store : outcome.store = store

/-- Arguments that are refused for a fault of usage refuse the run. -/
theorem isRefused_run (pictures : Terminal.Emoji.Pictures) {store : Store}
    {arguments : List String} {scope : Scope} {error : UsageError}
    (refused : Invocation.ofArguments arguments = .error (.usage scope error)) :
    IsRefused store (run pictures store arguments) := by
  have nonempty : arguments.isEmpty = false := by
    cases arguments with
    | nil => cases refused
    | cons first others => rfl
  simp only [run, nonempty, refused]
  exact ⟨rfl, rfl, rfl⟩

/-- An accepted argument list for a command gives at most one source. It is the one whose
option or whose word is given, its reader is selected and read whatever the order in which the
sources are looked for, and the command fails for want of a source exactly if none is given. An
argument list with the options of two sources is refused, whatever else is in it, unless a
flag asks for help or for the version. -/
theorem one_source :
    (∀ arguments options command,
      Invocation.ofArguments arguments = .ok { options, command := some command } →
        options.IsExclusive ∧ ∃ front others, arguments = front ++ command.name :: others ∧
          IsLeading front ∧
          (∀ parameter, options.gives parameter = true ↔ IsGiven command others parameter) ∧
          (∀ order : List Parameter, order.Perm Parameter.sources →
            (∀ store, options.readIn order store = options.read store) ∧
            ∀ parameter, IsGiven command others parameter →
              ∃ reader, options.reader? parameter = some reader ∧
                options.select order = some reader) ∧
          ∀ pictures store, (command.run pictures store options).shown = .error .noSource ↔
            ∀ parameter, ¬IsGiven command others parameter) ∧
    ∀ pictures store front command others, IsLeading front →
      (∀ flag ∈ [Parameter.help, .version],
        ¬Occurs .program flag front ∧ ¬Occurs (.command command) flag others) →
      ∀ first ∈ namedSources, ∀ second ∈ namedSources, first ≠ second →
        Occurs (.command command) first others → Occurs (.command command) second others →
          IsRefused store (run pictures store (front ++ command.name :: others)) := by
  constructor
  · intro arguments options command asked
    obtain ⟨exclusive, front, others, split, leading, given⟩ := gives_iff_of_ofArguments asked
    refine ⟨exclusive, front, others, split, leading, given, ?_, ?_⟩
    · intro order isOrder
      refine ⟨exclusive.readIn_perm isOrder, fun parameter isGiven => ?_⟩
      have gives := (given parameter).2 isGiven
      rw [← Options.isSome_reader?] at gives
      obtain ⟨reader, isReader⟩ := Option.isSome_iff_exists.1 gives
      exact ⟨reader, isReader, exclusive.select_eq isOrder isReader⟩
    · intro pictures store
      rw [shown_eq_noSource_iff]
      refine forall_congr' fun parameter => ?_
      rw [← given parameter, Bool.not_eq_true]
  · intro pictures store front command others leading noFlag first isFirst second isSecond different
      occursFirst occursSecond
    obtain ⟨scope, error, refused⟩ := ofArguments_of_two_sources leading noFlag isFirst isSecond
      different occursFirst occursSecond
    exact isRefused_run pictures refused

/-- The options of a command whose source is named twice, at last with an empty path. -/
def repeatedSource : Options :=
  { logLevel := some "INFO", file := some "" }

theorem one_source_repeated :
    Invocation.ofArguments ["--log-level=INFO", "show", "--fi", "a", "--file", ""] =
        .ok { options := repeatedSource, command := some .showTable } ∧
      repeatedSource.IsExclusive ∧
      (∃ reader, repeatedSource.reader? .file = some reader ∧
        repeatedSource.select [.source, .nodes, .yaml, .file] = some reader) ∧
      IsRefused .empty (run Terminal.Emoji.known .empty
        ["--log-level=INFO", "export", "--nodes", "-1", "-o", "x", "--yam=", "--", "y"]) := by
  have asked : Invocation.ofArguments ["--log-level=INFO", "show", "--fi", "a", "--file", ""] =
      .ok { options := repeatedSource, command := some .showTable } := by decide +kernel
  obtain ⟨exclusive, front, others, -, -, given, selected, -⟩ := one_source.1 _ _ _ asked
  have isGiven : IsGiven .showTable others .file := (given .file).1 rfl
  have leading : IsLeading ["--log-level=INFO"] := by
    refine ⟨[{ text := "--log-level=INFO", role := .option .logLevel false (some "INFO".toList) }],
      by decide +kernel, ?_⟩
    exact .cons (by decide) (by decide) .nil
  refine ⟨asked, exclusive, (selected _ (by decide)).2 .file isGiven, ?_⟩
  exact one_source.2 Terminal.Emoji.known .empty ["--log-level=INFO"] .exportTo
    ["--nodes", "-1", "-o", "x", "--yam=", "--", "y"] leading (by decide +kernel)
    .nodes (by decide) .yaml (by decide) (by decide) (by decide +kernel) (by decide +kernel)

example : Invocation.ofArguments ["export", "--nodes", "-1", "-o", "x", "--", "--file"] =
    .error (.usage (.command .exportTo) (.secondSource .source .nodes)) := by
  decide +kernel

end Roster.CommandLine
