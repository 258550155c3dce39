import Roster.Configuration
import Roster.Proofs.Outcome

/-!
# Configurations built by adding

What a configuration looks like that was built entry by entry: its descriptors
keep the two rules, and adding them again one after another gives the same
configuration. So a built configuration is determined by its descriptors.
-/

namespace Roster

/-- The two rules for descriptors. -/
structure IsDescriptor (descriptor : String) : Prop where
  nonempty : descriptor.toList ≠ []
  noBlank : ∀ c ∈ descriptor.toList, Text.isBlank c = false

namespace Configuration

/-- The configurations that successful additions lead to. -/
inductive Built : Configuration → Prop where
  | empty : Built .empty
  | add {configuration next : Configuration} (built : Built configuration) (descriptor : String)
      (added : configuration.add descriptor = .ok next) : Built next

@[simp] theorem descriptors_empty : Configuration.empty.descriptors = [] := rfl

/-- Adding succeeds exactly for descriptors, and puts one entry behind all others. -/
theorem add_eq_ok_iff {configuration next : Configuration} {descriptor : String} :
    configuration.add descriptor = .ok next ↔
      IsDescriptor descriptor ∧
        next = { entries := configuration.entries ++ [configuration.nextEntry descriptor] } := by
  unfold add
  split
  · rename_i isEmpty
    simp only [reduceCtorEq, false_iff]
    rintro ⟨isDescriptor, -⟩
    exact isDescriptor.nonempty (List.isEmpty_iff.1 isEmpty)
  · rename_i notEmpty
    split
    · rename_i blank
      simp only [reduceCtorEq, false_iff]
      rintro ⟨isDescriptor, -⟩
      obtain ⟨c, member, isBlank⟩ := List.any_eq_true.1 blank
      rw [isDescriptor.noBlank c member] at isBlank
      cases isBlank
    · rename_i noBlank
      have isDescriptor : IsDescriptor descriptor := by
        refine ⟨fun none => notEmpty (List.isEmpty_iff.2 none), fun c member => ?_⟩
        rw [Bool.eq_false_iff]
        intro isBlank
        exact noBlank (List.any_eq_true.2 ⟨c, member, isBlank⟩)
      simp only [Except.ok.injEq]
      exact ⟨fun same => ⟨isDescriptor, same.symm⟩, fun result => result.2.symm⟩

/-- An addition adds its descriptor behind all others. -/
theorem descriptors_add {configuration next : Configuration} {descriptor : String}
    (added : configuration.add descriptor = .ok next) :
    next.descriptors = configuration.descriptors ++ [descriptor] := by
  obtain ⟨-, rfl⟩ := add_eq_ok_iff.1 added
  simp [descriptors, nextEntry]

/-- The descriptors of a built configuration keep the rules. -/
theorem Built.isDescriptor {configuration : Configuration} (built : configuration.Built) :
    ∀ descriptor ∈ configuration.descriptors, IsDescriptor descriptor := by
  induction built with
  | empty => simp
  | add _ _ added inductionHypothesis =>
      intro descriptor member
      rw [descriptors_add added, List.mem_append, List.mem_singleton] at member
      rcases member with before | rfl
      · exact inductionHypothesis descriptor before
      · exact (add_eq_ok_iff.1 added).1

/-- A built configuration is the one of its descriptors. -/
theorem Built.ofDescriptors_descriptors {configuration : Configuration}
    (built : configuration.Built) :
    ofDescriptors configuration.descriptors = .ok configuration := by
  induction built with
  | empty => rfl
  | add _ _ added inductionHypothesis =>
      rw [descriptors_add added]
      unfold ofDescriptors addAll at inductionHypothesis ⊢
      rw [List.foldlM_append, inductionHypothesis]
      simp [bind, Except.bind, added, pure, Except.pure]

/-- The entries of a built configuration are its descriptors at their positions. -/
theorem Built.entries_eq {configuration : Configuration} (built : configuration.Built) :
    configuration.entries = configuration.descriptors.mapIdx Entry.mk := by
  induction built with
  | empty => rfl
  | add _ descriptor added inductionHypothesis =>
      rw [descriptors_add added, List.mapIdx_concat, ← inductionHypothesis]
      obtain ⟨-, rfl⟩ := add_eq_ok_iff.1 added
      simp [nextEntry, size, descriptors]

/-- Descriptors that were added one after another are the last ones. -/
theorem descriptors_addAll {configuration result : Configuration} {descriptors : List String}
    (added : configuration.addAll descriptors = .ok result) :
    result.descriptors = configuration.descriptors ++ descriptors := by
  induction descriptors generalizing configuration with
  | nil =>
      obtain rfl := Except.ok.inj added
      simp
  | cons descriptor others inductionHypothesis =>
      unfold addAll at added
      rw [List.foldlM_cons] at added
      obtain ⟨next, first, rest⟩ := bind_eq_ok.1 added
      rw [inductionHypothesis rest, descriptors_add first]
      simp

/-- A configuration has the descriptors it is made of. -/
theorem descriptors_ofDescriptors {result : Configuration} {descriptors : List String}
    (added : ofDescriptors descriptors = .ok result) : result.descriptors = descriptors := by
  simpa using descriptors_addAll added

/-- Built configurations with the same descriptors are equal. -/
theorem Built.eq_of_descriptors {left right : Configuration} (builtLeft : left.Built)
    (builtRight : right.Built) (same : left.descriptors = right.descriptors) : left = right := by
  have results := builtLeft.ofDescriptors_descriptors
  rw [same, builtRight.ofDescriptors_descriptors] at results
  exact (Except.ok.inj results).symm

/-- Adding descriptors to a built configuration gives a built one that has them
behind its own. -/
theorem Built.exists_addAll {configuration : Configuration} (built : configuration.Built)
    {descriptors : List String} (valid : ∀ descriptor ∈ descriptors, IsDescriptor descriptor) :
    ∃ result, configuration.addAll descriptors = .ok result ∧ result.Built ∧
      result.descriptors = configuration.descriptors ++ descriptors := by
  induction descriptors generalizing configuration with
  | nil => exact ⟨configuration, rfl, built, by simp⟩
  | cons descriptor others inductionHypothesis =>
      have added : configuration.add descriptor = .ok _ :=
        add_eq_ok_iff.2 ⟨valid descriptor List.mem_cons_self, rfl⟩
      obtain ⟨result, addedAll, builtResult, same⟩ := inductionHypothesis (built.add _ added)
        fun other member => valid other (List.mem_cons_of_mem _ member)
      refine ⟨result, ?_, builtResult, ?_⟩
      · unfold addAll at addedAll ⊢
        rw [List.foldlM_cons, added]
        exact addedAll
      · rw [same, descriptors_add added]
        simp

/-- Descriptors that keep the rules give a built configuration that holds them. -/
theorem exists_ofDescriptors {descriptors : List String}
    (valid : ∀ descriptor ∈ descriptors, IsDescriptor descriptor) :
    ∃ result, ofDescriptors descriptors = .ok result ∧ result.Built ∧
      result.descriptors = descriptors := by
  obtain ⟨result, added, built, same⟩ := Built.empty.exists_addAll valid
  exact ⟨result, added, built, by simpa using same⟩

end Configuration

end Roster
