import SourceIndex.CodeIndex
import SourceIndex.Proofs.OrderedMap

/-!
# Running totals

An index keeps its totals by adding and subtracting, and never counts.  They stay what a count would
give (`Balanced`), as adding and removing a file changes the totals by what the file holds.  So
**two balanced indexes with the same outlines have the same totals** (`totals_eq_of_get?_eq`).
-/

namespace SourceIndex

namespace CodeIndex

/-- The running totals of an index are what counting its entries gives. -/
structure Balanced (x : CodeIndex) : Prop where
  functions : x.totalFunctions = x.files.total (·.functions.length)
  classes : x.totalClasses = x.files.total (·.classes.length)

theorem balanced_empty : empty.Balanced := ⟨rfl, rfl⟩

theorem remove_of_none {x : CodeIndex} {path : String} (h : x.get? path = none) :
    x.remove path = x := by
  unfold get? at h
  rw [remove, pop, h]

theorem remove_of_some {x : CodeIndex} {path : String} {old : Outline}
    (h : x.get? path = some old) :
    x.remove path = ⟨x.files.erase path, x.totalFunctions - old.functions.length,
      x.totalClasses - old.classes.length⟩ := by
  unfold get? at h
  rw [remove, pop, h]

/-- A removed file has no outline; every other file keeps its own. -/
theorem get?_remove (x : CodeIndex) (path there : String) :
    (x.remove path).get? there = if there = path then none else x.get? there := by
  cases h : x.get? path with
  | none =>
    rw [remove_of_none h]
    split
    · next he => rw [he, h]
    · rfl
  | some old =>
    rw [remove_of_some h]
    exact OrderedMap.get?_erase x.files path there

/-- An added file has its outline; every other file keeps its own. -/
theorem get?_add (x : CodeIndex) (path there : String) (o : Outline) :
    (x.add path o).get? there = if there = path then some o else x.get? there := by
  show ((x.remove path).files.insert path o).get? there = _
  rw [OrderedMap.get?_insert]
  split
  · rfl
  · next hne =>
    show (x.remove path).get? there = _
    rw [get?_remove, if_neg hne]

/-- A file that was not there comes in at the end. -/
theorem entries_add_of_none {x : CodeIndex} {path : String} (h : x.get? path = none) (o : Outline) :
    (x.add path o).files.entries = x.files.entries ++ [(path, o)] := by
  show ((x.remove path).files.insert path o).entries = _
  rw [remove_of_none h]
  exact OrderedMap.entries_insert_of_none h o

theorem Balanced.remove {x : CodeIndex} (h : x.Balanced) (path : String) :
    (x.remove path).Balanced := by
  cases hg : x.get? path with
  | none => rw [remove_of_none hg]; exact h
  | some old =>
    have hf := OrderedMap.total_erase hg (fun o : Outline => o.functions.length)
    have hc := OrderedMap.total_erase hg (fun o : Outline => o.classes.length)
    rw [remove_of_some hg]
    constructor
    · show x.totalFunctions - old.functions.length = (x.files.erase path).total _
      rw [h.functions]
      omega
    · show x.totalClasses - old.classes.length = (x.files.erase path).total _
      rw [h.classes]
      omega

theorem Balanced.add {x : CodeIndex} (h : x.Balanced) (path : String) (o : Outline) :
    (x.add path o).Balanced := by
  -- The path is removed first, so that its new outline only adds to the totals.
  have hx := h.remove path
  have hnone : (x.remove path).files.get? path = none := by
    show (x.remove path).get? path = none
    rw [get?_remove, if_pos rfl]
  constructor
  · show (x.remove path).totalFunctions + o.functions.length
      = ((x.remove path).files.insert path o).total _
    rw [OrderedMap.total_insert hnone, hx.functions]
    rfl
  · show (x.remove path).totalClasses + o.classes.length
      = ((x.remove path).files.insert path o).total _
    rw [OrderedMap.total_insert hnone, hx.classes]
    rfl

/-- **The outlines decide the totals** of balanced indexes. -/
theorem totals_eq_of_get?_eq {x y : CodeIndex} (hx : x.Balanced) (hy : y.Balanced)
    (h : ∀ path, x.get? path = y.get? path) :
    x.totalFunctions = y.totalFunctions ∧ x.totalClasses = y.totalClasses := by
  rw [hx.functions, hy.functions, hx.classes, hy.classes, OrderedMap.total_congr h,
    OrderedMap.total_congr h]
  exact ⟨rfl, rfl⟩

end CodeIndex

end SourceIndex
