import SourceIndex.Data.OrderedMap
import SourceIndex.Location
import SourceIndex.Text.Utf8

/-!
# What stands where

A volume holds files, directories and links at locations.  **Every entry stands in a directory, under
names that files can have**: that is part of the type (`Volume.placed`), so that nothing needs to be
assumed of the volumes that a program may meet.

An entry is put at a location only where it can stand; otherwise the volume stays as it is.
-/

namespace SourceIndex

/-- What stands at a location. -/
inductive Entry where
  | file (content : Bytes)
  | directory
  /-- A link to where a path leads, seen from the directory that holds the link. -/
  | link (target : Path)
deriving DecidableEq

namespace Entry

/-- Whether an entry is a link. -/
def isLink : Entry → Bool
  | link _ => true
  | _ => false

/-- Where a link leads can be named. -/
def Proper : Entry → Prop
  | link target => target.Proper
  | _ => True

instance : (entry : Entry) → Decidable entry.Proper
  | file _ => .isTrue trivial
  | directory => .isTrue trivial
  | link target => inferInstanceAs (Decidable target.Proper)

/-- What stands at a location; the root is a directory without being listed. -/
def at? (entries : OrderedMap Location Entry) : Location → Option Entry
  | [] => some .directory
  | here => entries.get? here

/-- An entry can stand at a location among others: a directory holds it, and it has a name. -/
structure Placed (entries : OrderedMap Location Entry) (here : Location) (entry : Entry) : Prop where
  name : here.Proper
  target : entry.Proper
  parent : at? entries here.dropLast = some .directory

instance (entries : OrderedMap Location Entry) (here : Location) (entry : Entry) :
    Decidable (Placed entries here entry) :=
  decidable_of_iff
    (here.Proper ∧ entry.Proper ∧ at? entries here.dropLast = some .directory)
    ⟨fun h => ⟨h.1, h.2.1, h.2.2⟩, fun h => ⟨h.name, h.target, h.parent⟩⟩

theorem at?_of_ne_nil {entries : OrderedMap Location Entry} {here : Location} (h : here ≠ []) :
    at? entries here = entries.get? here := by
  cases here with
  | nil => exact absurd rfl h
  | cons part rest => rfl

end Entry

/-- Files, directories and links at their locations. -/
structure Volume where
  entries : OrderedMap Location Entry
  /-- Every entry stands in a directory, under names that files can have. -/
  placed : ∀ here entry, entries.get? here = some entry → Entry.Placed entries here entry

namespace Volume

/-- The volume that holds nothing but the root. -/
def empty : Volume := ⟨OrderedMap.empty, fun _ _ h => by cases h⟩

/-- What stands at a location. -/
def standing? (v : Volume) (here : Location) : Option Entry :=
  Entry.at? v.entries here

/-! ## Changing -/

/-- An entry can be put at a location: it can stand there, and no directory does. -/
def Takes (v : Volume) (here : Location) (entry : Entry) : Prop :=
  Entry.Placed v.entries here entry ∧ v.standing? here ≠ some .directory

instance (v : Volume) (here : Location) (entry : Entry) : Decidable (v.Takes here entry) :=
  inferInstanceAs (Decidable (_ ∧ _))

theorem Takes.ne_nil {v : Volume} {here : Location} {entry : Entry} (h : v.Takes here entry) :
    here ≠ [] := by
  rintro rfl
  exact h.2 rfl

/-- No directory is replaced, so that what stands in one still does. -/
theorem Takes.parent {v : Volume} {here there : Location} {entry : Entry} (h : v.Takes here entry)
    (hp : v.standing? there = some .directory) :
    Entry.at? (v.entries.insert here entry) there = some .directory := by
  by_cases hne : there = []
  · rw [hne]
    rfl
  · have hother : there ≠ here := by
      rintro rfl
      exact h.2 hp
    rw [Entry.at?_of_ne_nil hne, OrderedMap.get?_insert_ne _ hother, ← Entry.at?_of_ne_nil hne]
    exact hp

theorem Takes.placed {v : Volume} {here there : Location} {entry found : Entry}
    (h : v.Takes here entry) (hf : (v.entries.insert here entry).get? there = some found) :
    Entry.Placed (v.entries.insert here entry) there found := by
  rw [OrderedMap.get?_insert] at hf
  split at hf
  · next he =>
    obtain rfl := Option.some.inj hf
    rw [he]
    exact ⟨h.1.name, h.1.target, h.parent h.1.parent⟩
  · obtain ⟨hname, htarget, hparent⟩ := v.placed there found hf
    exact ⟨hname, htarget, h.parent hparent⟩

/-- Puts an entry at a location, if it can be put there. -/
def put (v : Volume) (here : Location) (entry : Entry) : Volume :=
  if h : v.Takes here entry then ⟨v.entries.insert here entry, fun _ _ => h.placed⟩ else v

/-- Makes a location a directory, unless something stands there. -/
def makeDirectory (v : Volume) (here : Location) : Volume :=
  if (v.standing? here).isSome then v else v.put here .directory

theorem placed_remove (v : Volume) (gone : Location) {here : Location} {entry : Entry}
    (h : (v.entries.filter (fun place _ => !gone.isPrefixOf place)).get? here = some entry) :
    Entry.Placed (v.entries.filter (fun place _ => !gone.isPrefixOf place)) here entry := by
  rw [OrderedMap.get?_filter_key] at h
  split at h
  · next hkept =>
    obtain ⟨hname, htarget, hparent⟩ := v.placed here entry h
    refine ⟨hname, htarget, ?_⟩
    by_cases hne : here.dropLast = []
    · rw [hne]
      rfl
    · -- What is kept is not below what is gone, and neither is its directory.
      have hdirectory : (!gone.isPrefixOf here.dropLast) = true := by
        rw [Bool.not_eq_true', Bool.eq_false_iff]
        intro hp
        rw [List.isPrefixOf_iff_prefix] at hp
        rw [Bool.not_eq_true', Bool.eq_false_iff, ne_eq, List.isPrefixOf_iff_prefix] at hkept
        exact hkept (hp.trans (List.dropLast_prefix here))
      rw [Entry.at?_of_ne_nil hne, OrderedMap.get?_filter_key, if_pos hdirectory,
        ← Entry.at?_of_ne_nil hne]
      exact hparent
  · cases h

/-- Removes what stands at a location and below it. -/
def remove (v : Volume) (gone : Location) : Volume :=
  ⟨v.entries.filter (fun place _ => !gone.isPrefixOf place), fun _ _ => v.placed_remove gone⟩

end Volume

end SourceIndex
