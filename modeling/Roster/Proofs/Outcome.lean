import Mathlib.Tactic.Common

/-!
# Outcomes of steps in a row

What it takes that steps in a row come through: each of them does, and on what the
one before it gave. They fail where the first of them fails that does not come through.
-/

namespace Roster

variable {ε ε' α β : Type}

theorem bind_eq_ok {first : Except ε α} {next : α → Except ε β} {result : β} :
    first >>= next = .ok result ↔ ∃ given, first = .ok given ∧ next given = .ok result := by
  cases first with
  | error error =>
      constructor
      · intro same
        cases same
      · rintro ⟨_, same, _⟩
        cases same
  | ok given =>
      constructor
      · exact fun same => ⟨given, rfl, same⟩
      · rintro ⟨other, isGiven, same⟩
        rw [isGiven]
        exact same

theorem bind_eq_error {first : Except ε α} {next : α → Except ε β} {error : ε} :
    first >>= next = .error error ↔
      first = .error error ∨ ∃ given, first = .ok given ∧ next given = .error error := by
  cases first with
  | error other => simp [bind, Except.bind]
  | ok given => simp [bind, Except.bind]

/-- Naming an error otherwise does not concern steps that come through. -/
theorem mapError_eq_ok {first : Except ε α} {rename : ε → ε'} {result : α} :
    first.mapError rename = .ok result ↔ first = .ok result := by
  cases first with
  | error error => simp [Except.mapError]
  | ok given => simp [Except.mapError]

theorem mapError_eq_error {first : Except ε α} {rename : ε → ε'} {error : ε'} :
    first.mapError rename = .error error ↔
      ∃ cause, first = .error cause ∧ rename cause = error := by
  cases first with
  | error cause => simp [Except.mapError]
  | ok given => simp [Except.mapError]

theorem toOption_eq_some {first : Except ε α} {result : α} :
    first.toOption = some result ↔ first = .ok result := by
  cases first <;> simp [Except.toOption]

/-- What a step gives has a property, if it comes through. -/
def Gives (outcome : Except ε α) (property : α → Prop) : Prop :=
  ∀ result, outcome = .ok result → property result

theorem Gives.ok {result : α} {property : α → Prop} (holds : property result) :
    Gives (.ok result : Except ε α) property := by
  intro other same
  exact Except.ok.inj same ▸ holds

theorem Gives.error (error : ε) (property : α → Prop) :
    Gives (.error error : Except ε α) property := by
  intro result same
  cases same

theorem Gives.bind {first : Except ε α} {next : α → Except ε β} {between : α → Prop}
    {property : β → Prop} (gives : Gives first between)
    (onward : ∀ given, between given → Gives (next given) property) :
    Gives (first >>= next) property := by
  intro result whole
  obtain ⟨given, isGiven, goesOn⟩ := bind_eq_ok.1 whole
  exact onward given (gives given isGiven) result goesOn

/-- What the first step gives may not matter. -/
theorem Gives.bind_any {first : Except ε α} {next : α → Except ε β} {property : β → Prop}
    (onward : ∀ given, Gives (next given) property) : Gives (first >>= next) property := by
  intro result whole
  obtain ⟨given, -, goesOn⟩ := bind_eq_ok.1 whole
  exact onward given result goesOn

/-- Behind a result, the next step decides. -/
theorem Gives.ok_bind {given : α} {next : α → Except ε β} {property : β → Prop}
    (gives : Gives (next given) property) : Gives (.ok given >>= next) property :=
  gives

/-- Where the first step comes to no result, the steps in a row come to none. -/
theorem Gives.bind_none {first : Except ε α} {next : α → Except ε β} {property : β → Prop}
    (none : Gives first fun _ => False) : Gives (first >>= next) property :=
  none.bind fun _ holds => holds.elim

theorem Gives.mapError {first : Except ε α} {property : α → Prop} (gives : Gives first property)
    (rename : ε → ε') : Gives (first.mapError rename) property :=
  fun result renamed => gives result (mapError_eq_ok.1 renamed)

/-- Using what a step gives takes its property along. -/
theorem Gives.map {first : Except ε α} {before : α → Prop} {property : β → Prop} {use : α → β}
    (gives : Gives first before) (onward : ∀ given, before given → property (use given)) :
    Gives (first.map use) property := by
  cases first with
  | error error => exact Gives.error error property
  | ok given => exact Gives.ok (onward given (gives given rfl))

/-- A property that each step keeps is kept by all steps over a list. -/
theorem Gives.foldlM {step : β → α → Except ε β} {property : β → Prop} {list : List α} {start : β}
    (holds : property start) (keeps : ∀ given, property given → ∀ a, Gives (step given a) property) :
    Gives (list.foldlM step start) property := by
  induction list generalizing start with
  | nil => exact Gives.ok holds
  | cons a others inductionHypothesis =>
      rw [List.foldlM_cons]
      exact Gives.bind (keeps start holds a) fun next => inductionHypothesis

section Fold

variable {step : β → α → Except ε β} {accepts : α → Prop} {refuses : α → ε → Prop} {list : List α}

/-- Where it depends on the element alone whether a step comes through, all steps over a list
do exactly if each element is accepted. -/
theorem exists_foldlM_iff (accepted : ∀ state a, (∃ next, step state a = .ok next) ↔ accepts a)
    {start : β} : (∃ result, list.foldlM step start = .ok result) ↔ ∀ a ∈ list, accepts a := by
  induction list generalizing start with
  | nil => exact iff_of_true ⟨start, rfl⟩ (List.forall_mem_nil _)
  | cons a others inductionHypothesis =>
      rw [List.forall_mem_cons]
      constructor
      · rintro ⟨result, whole⟩
        obtain ⟨next, first, rest⟩ := bind_eq_ok.1 whole
        exact ⟨(accepted start a).1 ⟨next, first⟩, inductionHypothesis.1 ⟨result, rest⟩⟩
      · rintro ⟨isAccepted, areAccepted⟩
        obtain ⟨next, first⟩ := (accepted start a).2 isAccepted
        obtain ⟨result, rest⟩ := inductionHypothesis.2 areAccepted
        exact ⟨result, bind_eq_ok.2 ⟨next, first, rest⟩⟩

/-- Where it depends on the element alone whether a step comes through and how it fails, the
steps over a list fail as the first element does that is refused. -/
theorem foldlM_eq_error_iff (accepted : ∀ state a, (∃ next, step state a = .ok next) ↔ accepts a)
    (refused : ∀ state a error, step state a = .error error ↔ refuses a error) {start : β}
    {error : ε} :
    list.foldlM step start = .error error ↔ ∃ front a back, list = front ++ a :: back ∧
      (∀ other ∈ front, accepts other) ∧ refuses a error := by
  induction list generalizing start with
  | nil =>
      refine iff_of_false nofun ?_
      rintro ⟨front, a, back, split, -⟩
      simp at split
  | cons first others inductionHypothesis =>
      refine bind_eq_error.trans ⟨?_, ?_⟩
      · rintro (failed | ⟨next, added, failed⟩)
        · exact ⟨[], first, others, rfl, List.forall_mem_nil _, (refused _ _ _).1 failed⟩
        · obtain ⟨front, a, back, rfl, areAccepted, isRefused⟩ := inductionHypothesis.1 failed
          exact ⟨first :: front, a, back, rfl,
            List.forall_mem_cons.2 ⟨(accepted _ _).1 ⟨next, added⟩, areAccepted⟩, isRefused⟩
      · rintro ⟨front, a, back, split, areAccepted, isRefused⟩
        cases front with
        | nil =>
            obtain ⟨rfl, -⟩ := List.cons.inj split
            exact .inl ((refused _ _ _).2 isRefused)
        | cons other front =>
            obtain ⟨rfl, rfl⟩ := List.cons.inj split
            obtain ⟨isAccepted, rest⟩ := List.forall_mem_cons.1 areAccepted
            obtain ⟨next, added⟩ := (accepted start first).2 isAccepted
            refine .inr ⟨next, added, ?_⟩
            exact inductionHypothesis.2 ⟨front, a, back, rfl, rest, isRefused⟩

end Fold

theorem map_eq_ok {first : Except ε α} {use : α → β} {result : β} :
    first.map use = .ok result ↔ ∃ given, first = .ok given ∧ use given = result := by
  cases first <;> simp [Except.map]

theorem map_eq_error {first : Except ε α} {use : α → β} {error : ε} :
    first.map use = .error error ↔ first = .error error := by
  cases first <;> simp [Except.map]

end Roster
