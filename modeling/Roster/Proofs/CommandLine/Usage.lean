import Roster.Proofs.CommandLine.PlainWords

/-!
# Faults of usage

Completing a parameter sets it or is refused for a fault of usage; only the flags, which ask
for help or for the version, end the reading in another way. What is set keeps a single
source single, since every source is checked against the others first.
-/

namespace Roster.CommandLine

/-- A reading gives a result with a property, or it is refused for a fault of usage, unless
there is an excuse for another end. -/
structure Ends {α : Type} (excuse : Prop) (reading : Except Stop α) (property : α → Prop) :
    Prop where
  gives : Gives reading property
  refuses : ∀ stop, reading = .error stop → excuse ∨ ∃ scope error, stop = .usage scope error

namespace Ends

variable {α β : Type} {excuse : Prop} {property : α → Prop}

theorem ok {result : α} (holds : property result) : Ends excuse (.ok result) property where
  gives := Gives.ok holds
  refuses := nofun

theorem usage (scope : Scope) (error : UsageError) (property : α → Prop) :
    Ends excuse (.error (.usage scope error)) property where
  gives := Gives.error _ _
  refuses := fun _ same => .inr ⟨scope, error, (Except.error.inj same).symm⟩

/-- With an excuse, only a result counts. -/
theorem of_excuse {reading : Except Stop α} (excused : excuse) (gives : Gives reading property) :
    Ends excuse reading property where
  gives := gives
  refuses := fun _ _ => .inl excused

/-- A fault of usage is reported as such. -/
theorem mapError {checked : Except UsageError α} (gives : Gives checked property)
    (scope : Scope) : Ends excuse (checked.mapError (Stop.usage scope)) property where
  gives := gives.mapError _
  refuses := by
    intro stop failed
    obtain ⟨error, -, rfl⟩ := mapError_eq_error.1 failed
    exact .inr ⟨scope, error, rfl⟩

theorem mono {reading : Except Stop α} {other : α → Prop} (ends : Ends excuse reading property)
    (weaker : ∀ result, property result → other result) : Ends excuse reading other where
  gives := fun result given => weaker result (ends.gives result given)
  refuses := ends.refuses

theorem bind {first : Except Stop β} {next : β → Except Stop α} {between : β → Prop}
    (ends : Ends excuse first between)
    (onward : ∀ given, between given → Ends excuse (next given) property) :
    Ends excuse (first >>= next) property where
  gives := ends.gives.bind fun given holds => (onward given holds).gives
  refuses := by
    intro stop failed
    rcases bind_eq_error.1 failed with early | ⟨given, isGiven, late⟩
    · exact ends.refuses stop early
    · exact (onward given (ends.gives given isGiven)).refuses stop late

/-- Behind a result, the next step decides. -/
theorem ok_bind {given : β} {next : β → Except Stop α}
    (ends : Ends excuse (next given) property) : Ends excuse (.ok given >>= next) property :=
  ends

end Ends

/-- The parameters that name a source by an option. -/
def namedSources : List Parameter := [.file, .yaml, .nodes]

namespace Options

/-- At most one source is given. -/
def IsExclusive (options : Options) : Prop :=
  ∀ first second, options.gives first = true → options.gives second = true → first = second

variable {options : Options} {parameter other : Parameter} {values : List String}

/-- Only sources count as given. -/
theorem mem_sources_of_gives (given : options.gives parameter = true) :
    parameter ∈ Parameter.sources := by
  cases parameter <;> first | decide | cases given

/-- Setting an option to a value gives the source that it names, and no other. -/
theorem gives_set (isNamed : other ∈ namedSources) (valued : values ≠ []) :
    (options.set parameter values).gives other = true ↔
      options.gives other = true ∨ parameter = other := by
  simp only [namedSources, List.mem_cons, List.not_mem_nil, or_false] at isNamed
  rcases isNamed with rfl | rfl | rfl <;> cases parameter <;> simp [set, gives, valued]

theorem source_set (other : parameter ≠ .source) :
    (options.set parameter values).source = options.source := by
  cases parameter <;> first | rfl | exact absurd rfl other

/-- Setting a parameter gives nothing but this parameter. -/
theorem gives_of_gives_set (given : (options.set parameter values).gives other = true) :
    options.gives other = true ∨ parameter = other := by
  cases parameter <;> cases other <;> simp_all [set, gives]

/-- A source that is checked to be the only one remains so when it is set. -/
theorem IsExclusive.set (exclusive : options.IsExclusive)
    (checked : parameter ∈ Parameter.sources →
      ∀ other, options.gives other = true → other = parameter) :
    (options.set parameter values).IsExclusive := by
  intro first second givesFirst givesSecond
  rcases gives_of_gives_set givesFirst with before | rfl <;>
    rcases gives_of_gives_set givesSecond with beforeSecond | rfl
  · exact exclusive first second before beforeSecond
  · exact checked (mem_sources_of_gives givesSecond) first before
  · exact (checked (mem_sources_of_gives givesFirst) second beforeSecond).symm
  · rfl

end Options

/-- Where a source passes the check, no other one is given. -/
theorem gives_checkSources (options : Options) (parameter : Parameter) :
    Gives (checkSources options parameter) fun _ => parameter ∈ Parameter.sources →
      ∀ other, options.gives other = true → other = parameter := by
  unfold checkSources
  split
  · split
    · rename_i noneFound
      refine Gives.ok fun _ other given => ?_
      have differs := List.find?_eq_none.1 noneFound other (Options.mem_sources_of_gives given)
      simpa [given] using differs
    · exact Gives.error _ _
  · rename_i noSource
    exact Gives.ok fun isSource => absurd (List.contains_iff_mem.2 isSource) noSource

section Completing

variable {excuse : Prop} {scope : Scope} {progress : Progress} {flags : List Parameter}
  {parameter : Parameter}

/-- Completing a parameter that takes values sets it, and keeps a single source single. -/
theorem ends_complete {options : Options} (valued : parameter.arity ≠ .none)
    (values : List String) :
    Ends excuse (complete scope options parameter values) fun after =>
      after = options.set parameter values ∧ (options.IsExclusive → after.IsExclusive) := by
  unfold complete
  split
  · exact absurd rfl valued
  · exact absurd rfl valued
  · refine Ends.bind (Ends.mapError (fun _ _ => True.intro) scope) fun _ _ => ?_
    refine Ends.bind (Ends.mapError (gives_checkSources options parameter) scope)
      fun _ checked => ?_
    exact Ends.ok ⟨rfl, fun exclusive => exclusive.set checked⟩

theorem ends_completeAll (valued : parameter.arity ≠ .none) (values : List String) :
    Ends excuse (progress.completeAll scope [] parameter values) fun after =>
      after = { progress with options := progress.options.set parameter values } ∧
        (progress.options.IsExclusive → after.options.IsExclusive) := by
  refine Ends.ok_bind (Ends.bind (ends_complete valued values) ?_)
  rintro _ ⟨rfl, kept⟩
  exact Ends.ok ⟨rfl, kept⟩

/-- Completing a flag ends the reading. -/
theorem gives_complete_flag (flag : parameter.arity = .none) (options : Options)
    (values : List String) {property : Options → Prop} :
    Gives (complete scope options parameter values) property := by
  cases parameter <;> first | exact Gives.error _ _ | cases flag

/-- Completing flags, or a flag behind them, ends the reading. -/
theorem gives_completeAll_flag (areFlags : ∀ flag ∈ flags, flag.arity = .none)
    (isFlagged : parameter.arity = .none ∨ flags ≠ []) (values : List String)
    {property : Progress → Prop} :
    Gives (progress.completeAll scope flags parameter values) property := by
  cases flags with
  | nil =>
      have isFlag : parameter.arity = .none := by simpa using isFlagged
      exact Gives.bind_any fun _ => Gives.bind_none (gives_complete_flag isFlag _ values)
  | cons flag others =>
      refine Gives.bind_none ?_
      rw [List.foldlM_cons]
      exact Gives.bind_none (gives_complete_flag (areFlags flag List.mem_cons_self) _ [])

end Completing

end Roster.CommandLine
