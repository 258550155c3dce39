import Roster.Configuration.Wide
import Roster.Proofs.Configuration.Built
import Roster.Proofs.Text.Wide

/-!
# Wide configurations built by adding

The two rules for wide descriptors, and what a wide configuration looks like that was built by
adding. Without halves it is a built configuration, and the other way round: the wide
configurations are the configurations and those with halves.
-/

namespace Roster

open Roster.Text (CodePoint Wide)

/-- The two rules for wide descriptors. -/
structure IsWideDescriptor (descriptor : Wide) : Prop where
  nonempty : descriptor.codes ≠ []
  noBlank : ∀ code ∈ descriptor.codes, code.isBlank = false

/-- The rules say the same about a string. -/
theorem isWideDescriptor_plain {descriptor : String} :
    IsWideDescriptor (.plain descriptor) ↔ IsDescriptor descriptor := by
  constructor
  · rintro ⟨nonempty, noBlank⟩
    exact ⟨fun none => nonempty (by rw [Wide.codes, none, List.map_nil]),
      fun c member => noBlank (.char c) (List.mem_map_of_mem member)⟩
  · rintro ⟨nonempty, noBlank⟩
    exact ⟨fun none => nonempty (List.map_eq_nil_iff.1 none),
      List.forall_mem_map.2 noBlank⟩

/-- Why a text is no descriptor: it is empty, or holds a blank character. -/
inductive RefusedText : Wide → InvalidDescriptor → Prop where
  | empty : RefusedText "" .empty
  | containsBlank {text : Wide} {code : CodePoint} (member : code ∈ text.codes)
      (blank : code.isBlank = true) : RefusedText text (.containsBlank text)

namespace WideConfiguration

/-- The wide configurations that successful additions lead to. -/
inductive Built : WideConfiguration → Prop where
  | empty : Built .empty
  | add {configuration next : WideConfiguration} (built : Built configuration)
      (descriptor : Wide) (added : configuration.add descriptor = .ok next) : Built next

/-- Adding succeeds exactly for descriptors, and puts one behind all others. -/
theorem add_eq_ok_iff {configuration next : WideConfiguration} {descriptor : Wide} :
    configuration.add descriptor = .ok next ↔
      IsWideDescriptor descriptor ∧
        next = { descriptors := configuration.descriptors ++ [descriptor] } := by
  unfold add
  split
  · rename_i isEmpty
    simp only [reduceCtorEq, false_iff]
    rintro ⟨valid, -⟩
    exact valid.nonempty (List.isEmpty_iff.1 isEmpty)
  · rename_i notEmpty
    split
    · rename_i blank
      simp only [reduceCtorEq, false_iff]
      rintro ⟨valid, -⟩
      obtain ⟨code, member, isBlank⟩ := List.any_eq_true.1 blank
      rw [valid.noBlank code member] at isBlank
      cases isBlank
    · rename_i noBlank
      have valid : IsWideDescriptor descriptor := by
        refine ⟨fun none => notEmpty (List.isEmpty_iff.2 none), fun code member => ?_⟩
        rw [Bool.eq_false_iff]
        intro isBlank
        exact noBlank (List.any_eq_true.2 ⟨code, member, isBlank⟩)
      simp only [Except.ok.injEq]
      exact ⟨fun same => ⟨valid, same.symm⟩, fun result => result.2.symm⟩

/-- Adding fails exactly for a text that is refused. -/
theorem add_eq_error_iff {configuration : WideConfiguration} {descriptor : Wide}
    {cause : InvalidDescriptor} :
    configuration.add descriptor = .error cause ↔ RefusedText descriptor cause := by
  constructor
  · intro failed
    unfold add at failed
    split at failed
    · rename_i isEmpty
      obtain rfl := Except.error.inj failed
      have same := Wide.ofCodes_codes descriptor
      rw [List.isEmpty_iff.1 isEmpty] at same
      obtain rfl : Wide.plain "" = descriptor := same
      exact .empty
    · split at failed
      · rename_i blank
        obtain rfl := Except.error.inj failed
        obtain ⟨code, member, isBlank⟩ := List.any_eq_true.1 blank
        exact .containsBlank member isBlank
      · cases failed
  · intro refused
    cases refused with
    | empty => rfl
    | containsBlank member blank =>
        have nonempty : ¬descriptor.codes.isEmpty = true := fun none =>
          List.ne_nil_of_mem member (List.isEmpty_iff.1 none)
        rw [add, if_neg nonempty, if_pos (List.any_eq_true.2 ⟨_, member, blank⟩)]

/-- The descriptors of a built configuration keep the rules. -/
theorem Built.isWideDescriptor {configuration : WideConfiguration} (built : configuration.Built) :
    ∀ descriptor ∈ configuration.descriptors, IsWideDescriptor descriptor := by
  induction built with
  | empty => exact List.forall_mem_nil _
  | add _ _ added inductionHypothesis =>
      obtain ⟨valid, rfl⟩ := add_eq_ok_iff.1 added
      exact List.forall_mem_append.2 ⟨inductionHypothesis, List.forall_mem_singleton.2 valid⟩

/-- A configuration holds no half if each of its descriptors is a string. -/
theorem isHalved_eq_false_iff {configuration : WideConfiguration} :
    configuration.isHalved = false ↔
      configuration.descriptors = configuration.strings.map .plain := by
  obtain ⟨descriptors⟩ := configuration
  simp only [isHalved, strings]
  induction descriptors with
  | nil => exact iff_of_true rfl rfl
  | cons descriptor others inductionHypothesis =>
      cases descriptor with
      | plain text => simpa [Wide.isHalved, Wide.string?] using inductionHypothesis
      | halved codes holds =>
          refine iff_of_false (by simp [Wide.isHalved]) fun same => ?_
          have member : Wide.halved codes holds ∈
              ((Wide.halved codes holds :: others).filterMap Wide.string?).map .plain :=
            same ▸ List.mem_cons_self
          obtain ⟨text, -, impossible⟩ := List.mem_map.1 member
          cases impossible

end WideConfiguration

namespace Configuration

theorem descriptors_wide (configuration : Configuration) :
    configuration.wide.descriptors = configuration.descriptors.map .plain := rfl

/-- A configuration has no descriptor with a half. -/
theorem isHalved_wide (configuration : Configuration) : configuration.wide.isHalved = false := by
  simp [WideConfiguration.isHalved, descriptors_wide, Wide.isHalved]

theorem strings_wide (configuration : Configuration) :
    configuration.wide.strings = configuration.descriptors := by
  have kept : Wide.string? ∘ Wide.plain = some := rfl
  rw [WideConfiguration.strings, descriptors_wide, List.filterMap_map, kept, List.filterMap_some]

theorem size_wide (configuration : Configuration) :
    configuration.wide.size = configuration.size := by
  simp [WideConfiguration.size, descriptors_wide, size, descriptors]

/-- Adding a string is the same in the wide configuration. -/
theorem wide_add {configuration next : Configuration} {descriptor : String}
    (added : configuration.add descriptor = .ok next) :
    configuration.wide.add descriptor = .ok next.wide := by
  refine WideConfiguration.add_eq_ok_iff.2
    ⟨isWideDescriptor_plain.2 (add_eq_ok_iff.1 added).1, ?_⟩
  rw [wide, descriptors_add added, List.map_append]
  rfl

/-- A built configuration is built as a wide one. -/
theorem Built.wide {configuration : Configuration} (built : configuration.Built) :
    configuration.wide.Built := by
  induction built with
  | empty => exact .empty
  | add _ descriptor added inductionHypothesis => exact inductionHypothesis.add _ (wide_add added)

end Configuration

/-- A built wide configuration without halves is a built configuration. -/
theorem WideConfiguration.Built.exists_wide {configuration : WideConfiguration}
    (built : configuration.Built) (noHalf : configuration.isHalved = false) :
    ∃ narrow : Configuration, narrow.Built ∧ narrow.wide = configuration ∧
      Configuration.ofDescriptors configuration.strings = .ok narrow := by
  have areStrings := isHalved_eq_false_iff.1 noHalf
  have valid : ∀ text ∈ configuration.strings, IsDescriptor text := fun text member => by
    refine isWideDescriptor_plain.1 (built.isWideDescriptor _ ?_)
    rw [areStrings]
    exact List.mem_map_of_mem member
  obtain ⟨narrow, made, builtNarrow, same⟩ := Configuration.exists_ofDescriptors valid
  refine ⟨narrow, builtNarrow, ?_, made⟩
  rw [Configuration.wide, same, ← areStrings]

end Roster
