import Roster.Proofs.Configuration.Built

/-!
# What is refused as a descriptor

Whether a datum is accepted as a descriptor, and why it is not, depends on the datum alone and
not on the entries that are there already. So a list of data is accepted exactly if each of
them is, and what is wrong with it is what is wrong with the first one that is refused.
-/

namespace Roster

/-- The rules as they can be checked, one character after another. -/
theorem isDescriptor_iff {descriptor : String} :
    IsDescriptor descriptor ↔
      (!descriptor.toList.isEmpty && descriptor.toList.all fun c => !Text.isBlank c) = true := by
  simp only [Bool.and_eq_true, Bool.not_eq_true', List.isEmpty_eq_false_iff, List.all_eq_true]
  exact ⟨fun valid => ⟨valid.nonempty, valid.noBlank⟩, fun rules => ⟨rules.1, rules.2⟩⟩

instance : DecidablePred IsDescriptor := fun _ => decidable_of_iff _ isDescriptor_iff.symm

/-- The descriptor that a datum is, if it is one. -/
def Datum.descriptor? : Datum → Option String
  | .text value => if IsDescriptor value then some value else none
  | _ => none

/-- Why a datum is no descriptor: it is no text, or an empty one, or one with a blank
character in it. -/
inductive Datum.Refused : Datum → InvalidDescriptor → Prop where
  | notText {datum : Datum} (other : ∀ value, datum ≠ .text value) :
      Refused datum (.notText datum.typeName)
  | empty : Refused (.text "") .empty
  | containsBlank {value : String} {c : Char} (member : c ∈ value.toList)
      (blank : Text.isBlank c = true) : Refused (.text value) (.containsBlank value)

theorem Datum.descriptor?_eq_some_iff {datum : Datum} {descriptor : String} :
    datum.descriptor? = some descriptor ↔ datum = .text descriptor ∧ IsDescriptor descriptor := by
  cases datum with
  | text value =>
      by_cases valid : IsDescriptor value
      · rw [descriptor?, if_pos valid, Option.some_inj, Datum.text.injEq]
        exact ⟨fun same => ⟨same, same ▸ valid⟩, And.left⟩
      · rw [descriptor?, if_neg valid, Datum.text.injEq]
        refine iff_of_false nofun ?_
        rintro ⟨rfl, isValid⟩
        exact valid isValid
  | _ => simp [descriptor?]

namespace Configuration

/-- Adding a datum succeeds exactly if it is a descriptor, and puts one entry behind all
others. -/
theorem addDatum_eq_ok_iff {configuration next : Configuration} {datum : Datum} :
    configuration.addDatum datum = .ok next ↔
      ∃ descriptor, datum.descriptor? = some descriptor ∧
        next = { entries := configuration.entries ++ [configuration.nextEntry descriptor] } := by
  cases datum with
  | text value =>
      rw [addDatum, add_eq_ok_iff]
      constructor
      · rintro ⟨valid, same⟩
        exact ⟨value, Datum.descriptor?_eq_some_iff.2 ⟨rfl, valid⟩, same⟩
      · rintro ⟨descriptor, isDescriptor, same⟩
        obtain ⟨isText, valid⟩ := Datum.descriptor?_eq_some_iff.1 isDescriptor
        obtain rfl := Datum.text.inj isText
        exact ⟨valid, same⟩
  | _ => simp [addDatum, Datum.descriptor?]

/-- Adding a text fails exactly if it is refused. -/
theorem add_eq_error_iff {configuration : Configuration} {value : String}
    {cause : InvalidDescriptor} :
    configuration.add value = .error cause ↔ (Datum.text value).Refused cause := by
  constructor
  · intro failed
    unfold add at failed
    split at failed
    · rename_i isEmpty
      obtain rfl := Except.error.inj failed
      obtain rfl : value = "" := String.toList_eq_nil_iff.1 (List.isEmpty_iff.1 isEmpty)
      exact .empty
    · split at failed
      · rename_i blank
        obtain rfl := Except.error.inj failed
        obtain ⟨c, member, isBlank⟩ := List.any_eq_true.1 blank
        exact .containsBlank member isBlank
      · cases failed
  · intro refused
    cases refused with
    | notText other => exact absurd rfl (other value)
    | empty => rfl
    | containsBlank member blank =>
        have nonempty : ¬value.toList.isEmpty = true := fun none =>
          List.ne_nil_of_mem member (List.isEmpty_iff.1 none)
        rw [add, if_neg nonempty, if_pos (List.any_eq_true.2 ⟨_, member, blank⟩)]

/-- Adding a datum fails exactly if the datum is refused, for the same reason. -/
theorem addDatum_eq_error_iff {configuration : Configuration} {datum : Datum}
    {cause : InvalidDescriptor} :
    configuration.addDatum datum = .error cause ↔ datum.Refused cause := by
  cases datum with
  | text value => exact add_eq_error_iff
  | _ =>
      constructor
      · intro failed
        obtain rfl := Except.error.inj failed
        exact .notText nofun
      · intro refused
        cases refused
        rfl

end Configuration

/-- What is no descriptor is refused. -/
theorem Datum.descriptor?_eq_none_iff {datum : Datum} :
    datum.descriptor? = none ↔ ∃ cause, datum.Refused cause := by
  cases added : Configuration.empty.addDatum datum with
  | ok next =>
      obtain ⟨descriptor, isDescriptor, -⟩ := Configuration.addDatum_eq_ok_iff.1 added
      refine iff_of_false (by simp [isDescriptor]) ?_
      rintro ⟨cause, refused⟩
      cases added.symm.trans (Configuration.addDatum_eq_error_iff.2 refused)
  | error cause =>
      refine iff_of_true ?_ ⟨cause, Configuration.addDatum_eq_error_iff.1 added⟩
      rw [Option.eq_none_iff_forall_ne_some]
      intro descriptor isDescriptor
      cases added.symm.trans (Configuration.addDatum_eq_ok_iff.2 ⟨descriptor, isDescriptor, rfl⟩)

namespace Configuration

/-- Whether a datum is added does not depend on the entries that are there. -/
theorem exists_addDatum_iff (configuration : Configuration) (datum : Datum) :
    (∃ next, configuration.addDatum datum = .ok next) ↔
      ∃ descriptor, datum.descriptor? = some descriptor := by
  constructor
  · rintro ⟨next, added⟩
    obtain ⟨descriptor, isDescriptor, -⟩ := addDatum_eq_ok_iff.1 added
    exact ⟨descriptor, isDescriptor⟩
  · rintro ⟨descriptor, isDescriptor⟩
    exact ⟨_, addDatum_eq_ok_iff.2 ⟨descriptor, isDescriptor, rfl⟩⟩

/-- Data are added exactly if each of them is a descriptor. -/
theorem exists_addAllData_iff {configuration : Configuration} {data : List Datum} :
    (∃ result, configuration.addAllData data = .ok result) ↔
      ∀ datum ∈ data, ∃ descriptor, datum.descriptor? = some descriptor :=
  exists_foldlM_iff exists_addDatum_iff

/-- What is wrong with data is what is wrong with the first one that is refused. -/
theorem addAllData_eq_error_iff {configuration : Configuration} {data : List Datum}
    {cause : InvalidDescriptor} :
    configuration.addAllData data = .error cause ↔
      ∃ front datum back, data = front ++ datum :: back ∧
        (∀ other ∈ front, ∃ descriptor, other.descriptor? = some descriptor) ∧
        datum.Refused cause :=
  foldlM_eq_error_iff exists_addDatum_iff fun _ _ _ => addDatum_eq_error_iff

/-- Adding texts as data is adding them. -/
theorem addAllData_texts (configuration : Configuration) (descriptors : List String) :
    configuration.addAllData (descriptors.map Datum.text) = configuration.addAll descriptors := by
  rw [addAllData, List.foldlM_map]
  rfl

end Configuration

end Roster
