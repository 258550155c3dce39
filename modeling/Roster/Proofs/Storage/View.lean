import Mathlib.Data.List.Basic
import Roster.Storage.Store

/-!
# What a store shows

A store is looked at through `Store.get?` only. This module says what the two
basic changes do to that view, and which part of the view decides where a path
leads: the directories on the way, and nothing else. So a place stays where it is
as long as no directory is lost.
-/

namespace Roster.Storage

namespace Store

/-- Looking up behind a filter on the places finds nothing at the place that is
filtered out and the same as before elsewhere. -/
theorem lookup_filter_ne (items : List (Location × Item)) (location other : Location) :
    (items.filter fun entry => entry.1 != location).lookup other =
      if other = location then none else items.lookup other := by
  induction items with
  | nil => simp
  | cons entry items inductionHypothesis =>
      obtain ⟨place, item⟩ := entry
      by_cases kept : place = location
      · have dropped : ¬(place != location) = true := by simpa using kept
        rw [List.filter_cons, if_neg dropped, inductionHypothesis]
        by_cases found : other = location
        · simp [found]
        · have differs : (other == place) = false := by simpa [kept] using found
          simp [List.lookup_cons, differs]
      · have keeps : (place != location) = true := by simpa using kept
        rw [List.filter_cons, if_pos keeps, List.lookup_cons, List.lookup_cons,
          inductionHypothesis]
        by_cases found : other = place
        · simp [found, kept]
        · have differs : (other == place) = false := by simpa using found
          simp [differs]

/-- The working directory is always there. -/
@[simp] theorem get?_nil (store : Store) : store.get? [] = some .directory := rfl

/-- A place other than the working directory shows what is listed for it. -/
theorem get?_of_ne_nil (store : Store) {location : Location} (inside : location ≠ []) :
    store.get? location = store.items.lookup location := by
  simp [get?, inside]

/-- What is put at a place shows there, and nowhere else. -/
theorem get?_set (store : Store) {location : Location} (inside : location ≠ []) (item : Item)
    (other : Location) :
    (store.set location item).get? other =
      if other = location then some item else store.get? other := by
  by_cases root : other = []
  · subst root
    simp [Ne.symm inside]
  · rw [get?_of_ne_nil _ root, get?_of_ne_nil _ root, set, List.lookup_cons]
    by_cases same : other = location
    · simp [same]
    · have differs : (other == location) = false := by simpa using same
      simp [same, differs, lookup_filter_ne]

/-- What is put at a place shows there. -/
theorem get?_set_same (store : Store) {location : Location} (inside : location ≠ [])
    (item : Item) : (store.set location item).get? location = some item := by
  simp [get?_set store inside]

/-- Taking away what stands at a place leaves nothing there, and leaves all other
places alone. -/
theorem get?_erase (store : Store) {location : Location} (inside : location ≠ [])
    (other : Location) :
    (store.erase location).get? other = if other = location then none else store.get? other := by
  by_cases root : other = []
  · subst root
    simp [Ne.symm inside]
  · rw [get?_of_ne_nil _ root, get?_of_ne_nil _ root, erase, lookup_filter_ne]

/-- Taking away what was just put at a place takes away what had been there. -/
theorem erase_set (store : Store) (location : Location) (item : Item) :
    (store.set location item).erase location = store.erase location := by
  simp [erase, set, List.filter_filter]

/-- Where nothing stands there is nothing to take away. -/
theorem erase_of_none {store : Store} {location : Location} (free : store.get? location = none) :
    store.erase location = store := by
  have inside : location ≠ [] := by
    rintro rfl
    cases free
  rw [get?_of_ne_nil store inside, List.lookup_eq_none_iff] at free
  have kept : store.items.filter (fun entry => entry.1 != location) = store.items :=
    List.filter_eq_self.2 fun entry member => (bne_comm).trans (free entry member)
  rw [erase, kept]

/-- A store that has all directories of another. -/
def KeepsDirectories (before after : Store) : Prop :=
  ∀ location, before.get? location = some .directory → after.get? location = some .directory

/-- Keeping directories is transitive. -/
theorem KeepsDirectories.trans {first second third : Store} (kept : first.KeepsDirectories second)
    (keptAgain : second.KeepsDirectories third) : first.KeepsDirectories third :=
  fun location isDirectory => keptAgain location (kept location isDirectory)

/-- Putting something at a place where no directory stands loses no directory. -/
theorem keepsDirectories_set {store : Store} {location : Location} (item : Item)
    (noDirectory : store.get? location ≠ some .directory) :
    store.KeepsDirectories (store.set location item) := by
  intro other isDirectory
  have inside : location ≠ [] := by
    rintro rfl
    exact noDirectory (get?_nil store)
  have differs : other ≠ location := by
    rintro rfl
    exact noDirectory isDirectory
  rw [get?_set store inside, if_neg differs]
  exact isDirectory

/-- Taking away what is no directory loses no directory. -/
theorem keepsDirectories_erase {store : Store} {location : Location}
    (noDirectory : store.get? location ≠ some .directory) :
    store.KeepsDirectories (store.erase location) := by
  intro other isDirectory
  have inside : location ≠ [] := by
    rintro rfl
    exact noDirectory (get?_nil store)
  have differs : other ≠ location := by
    rintro rfl
    exact noDirectory isDirectory
  rw [get?_erase store inside, if_neg differs]
  exact isDirectory

/-- A walk along two parts is a walk along the first and from there along the
second. -/
theorem walk_append (store : Store) (here : Location) (first second : List String) :
    store.walk here (first ++ second) =
      (store.walk here first).bind fun there => store.walk there second := by
  induction first generalizing here with
  | nil => rfl
  | cons component others inductionHypothesis =>
      simp only [List.cons_append, walk]
      split
      · rfl
      · rfl
      · split
        · exact inductionHypothesis _
        · split
          · rfl
          · exact inductionHypothesis _

/-- A walk that arrives somewhere arrives there in every store with the same
directories, for it passes through nothing else. -/
theorem walk_of_keepsDirectories {before after : Store} (kept : before.KeepsDirectories after)
    {here there : Location} {components : List String}
    (arrives : before.walk here components = .ok there) :
    after.walk here components = .ok there := by
  induction components generalizing here with
  | nil => exact arrives
  | cons component others inductionHypothesis =>
      simp only [walk] at arrives ⊢
      split at arrives
      · cases arrives
      · cases arrives
      · rename_i isDirectory
        rw [kept here isDirectory]
        split at arrives
        · rename_i back
          simpa [back] using inductionHypothesis arrives
        · rename_i forward
          split at arrives
          · cases arrives
          · rename_i short
            simpa [forward, short] using inductionHypothesis arrives

/-- A path leads to the same place in every store with the same directories. -/
theorem locate_of_keepsDirectories {before after : Store} (kept : before.KeepsDirectories after)
    {path : Path} {location : Location} (found : before.locate path = .ok location) :
    after.locate path = .ok location := by
  unfold locate at found ⊢
  split at found
  · cases found
  · rename_i short
    rw [if_neg short]
    exact walk_of_keepsDirectories kept found

end Store

end Roster.Storage
