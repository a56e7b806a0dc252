import SourceIndex.Proofs.SyntaxTree
import Mathlib.Data.List.Nodup

/-!
# A walk meets each row once

A tree is walked by a loop over a stack: the tree on top is taken off, and its children are put in its
place, the first on top.  `Meets` is that loop, and has a last turn or it would not hold.  From any
stack **the loop comes to an end, and has met what the trees on the stack list in pre-order, the top
first** (`Tree.meets_iff`); so from one tree it meets what `walk` lists.

If the tree is stored as rows, parents before their children, then **the walk from a row meets that
row, and then what the walks from its children meet, in order**; it meets each row below once, and no
other (`Table.walk_rows_once`).  How the rows stand apart from that has no say in it.
-/

namespace SourceIndex

namespace Tree

/-! ## The loop -/

/-- `Meets stack met`: until nothing is left on the stack, whose top is at its end, the top is taken
off, and its children are put there in reverse; that meets `met`, in this order. -/
inductive Meets : List Tree → List Tree → Prop
  | done : Meets [] []
  | turn {stack met : List Tree} {t : Tree} (h : Meets (stack ++ t.children.reverse) met) :
      Meets (stack ++ [t]) (t :: met)

theorem Meets.eq {stack met : List Tree} (h : Meets stack met) :
    met = preorderAll stack.reverse := by
  induction h with
  | done => rfl
  | @turn stack met t _ ih =>
    rw [ih, List.reverse_append, List.reverse_reverse, List.reverse_append, List.reverse_singleton,
      List.singleton_append, preorderAll_append, preorderAll, preorder_eq,
      preorderAll_eq_flatMap t.children, List.cons_append]

theorem meets_reverse (worklist : List Tree) : Meets worklist.reverse (preorderAll worklist) := by
  -- The number of nodes on the worklist goes down with each turn, as it does in `walkOnto`.
  fun_induction walkOnto [] worklist with
  | case1 => exact Meets.done
  | case2 seen t rest ih =>
    rw [List.reverse_append, preorderAll_append, preorderAll_eq_flatMap t.children] at ih
    rw [List.reverse_cons, preorderAll, preorder_eq, List.cons_append]
    exact Meets.turn ih

/-- **From any stack the loop comes to an end**, and it meets the trees on the stack in pre-order. -/
theorem meets_iff {stack met : List Tree} : Meets stack met ↔ met = preorderAll stack.reverse := by
  refine ⟨Meets.eq, ?_⟩
  rintro rfl
  simpa using meets_reverse stack.reverse

theorem meets_singleton_iff {t : Tree} {met : List Tree} : Meets [t] met ↔ met = t.walk := by
  rw [meets_iff, walk_eq_preorder, List.reverse_singleton, preorderAll, preorderAll,
    List.append_nil]

theorem walk_eq (t : Tree) : t.walk = t :: t.children.flatMap walk := by
  have hwalk : walk = preorder := funext walk_eq_preorder
  rw [hwalk]
  exact preorder_eq t

end Tree

namespace Table

variable {table : Table} {i j : Nat}

/-! ## Parents and children -/

/-- The number that row `i` names as its parent's. -/
def parent? (table : Table) (i : Nat) : Option Nat := table[i]?.bind Row.parent

theorem lt_size_of_parent? {p : Nat} (h : table.parent? j = some p) : j < table.size := by
  obtain ⟨row, hrow, -⟩ := Option.bind_eq_some_iff.mp h
  exact (Array.getElem?_eq_some_iff.mp hrow).1

/-- Every parent stands before its children. -/
def ParentsFirst (table : Table) : Prop := ∀ i p, table.parent? i = some p → p < i

theorem parentsFirst_iff (table : Table) :
    table.ParentsFirst ↔ ∀ i ∈ List.range table.size, (table.parent? i).all (· < i) = true := by
  constructor
  · intro h i _
    rw [Option.all_eq_true]
    intro p hp
    exact decide_eq_true (h i p hp)
  · intro h i p hp
    have hall := h i (List.mem_range.mpr (lt_size_of_parent? hp))
    rw [hp] at hall
    exact of_decide_eq_true hall

instance (table : Table) : Decidable table.ParentsFirst :=
  decidable_of_iff _ (parentsFirst_iff table).symm

/-- `Below table i j`: row `j` is row `i`, or its parent is below row `i`. -/
inductive Below (table : Table) (i : Nat) : Nat → Prop
  | refl : Below table i i
  | under {j p : Nat} (hp : table.parent? j = some p) (h : Below table i p) : Below table i j

theorem Below.trans {k : Nat} (h : table.Below i j) (hk : table.Below j k) : table.Below i k := by
  induction hk with
  | refl => exact h
  | under hp _ ih => exact .under hp ih

theorem Below.le (hfirst : table.ParentsFirst) (h : table.Below i j) : i ≤ j := by
  induction h with
  | refl => exact Nat.le_refl i
  | under hp _ ih =>
    have hlt := hfirst _ _ hp
    omega

/-- Of two rows that a third is below, one is below the other. -/
theorem Below.total {k : Nat} (h : table.Below i k) (hj : table.Below j k) :
    table.Below i j ∨ table.Below j i := by
  induction h with
  | refl => exact Or.inr hj
  | under hp h ih =>
    cases hj with
    | refl => exact Or.inl (.under hp h)
    | under hp' hj =>
      obtain rfl := Option.some.inj (hp.symm.trans hp')
      exact ih hj

theorem mem_naming_iff {first : Nat} :
    j ∈ table.naming i first ↔ first ≤ j ∧ table.parent? j = some i := by
  rw [naming, List.mem_filter, List.mem_range'_1, beq_iff_eq]
  constructor
  · rintro ⟨⟨hle, -⟩, hp⟩
    exact ⟨hle, hp⟩
  · rintro ⟨hle, hp⟩
    have hj : j < table.size := lt_size_of_parent? hp
    exact ⟨⟨hle, by omega⟩, hp⟩

/-- The rows that name row `i` all stand after it. -/
theorem naming_zero_eq (hfirst : table.ParentsFirst) (i : Nat) :
    table.naming i 0 = table.rowsUnder i := by
  have hsplit (first : Nat) (hle : first ≤ i + 1) : table.naming i first = table.rowsUnder i := by
    -- From `i + 1` backwards: `left` is how many rows still stand before those after `i`.
    generalize hleft : i + 1 - first = left
    induction left generalizing first with
    | zero =>
      obtain rfl : first = i + 1 := by omega
      rfl
    | succ left ih =>
      have hrest := ih (first + 1) (by omega) (by omega)
      by_cases hlt : first < table.size
      · have hrow : table[first]? = some table[first] := Array.getElem?_eq_getElem hlt
        rw [naming_cons hrow, if_neg ?_, hrest]
        intro hp
        have hafter := hfirst first i (by rw [parent?, hrow]; exact hp)
        omega
      · rw [naming_of_size_le (by omega), rowsUnder, naming_of_size_le (by omega)]
  exact hsplit 0 (by omega)

/-! ## The rows that a walk meets -/

/-- The numbers of the rows that a walk from row `i` meets, in order. -/
def walkFrom (table : Table) (i : Nat) : List Nat :=
  ((table.tree? i).map (fun t => t.walk.map (·.node.id))).getD []

theorem exists_tree? (hi : i < table.size) : ∃ t, table.tree? i = some t := by
  rw [tree?, Array.getElem?_eq_getElem hi]
  exact ⟨_, rfl⟩

theorem id_of_tree? {t : Tree} (h : table.tree? i = some t) : t.node.id = i := by
  obtain ⟨row, -, rfl⟩ := Option.map_eq_some_iff.mp h
  rfl

/-- What holds of a row if it holds of the rows under it holds of every row. -/
theorem rows_induction {motive : Nat → Prop} (table : Table)
    (step : ∀ i, (∀ j ∈ table.rowsUnder i, motive j) → motive i) (i : Nat) : motive i := by
  -- The rows under a row stand after it, so that fewer rows stand after them.
  induction h : table.size - i using Nat.strongRecOn generalizing i with
  | _ n ih =>
    refine step i ?_
    intro j hj
    obtain ⟨hlt, hp⟩ := mem_naming_iff.mp hj
    have hsize := lt_size_of_parent? hp
    exact ih (table.size - j) (by omega) j rfl

/-- What a walk meets are the trees of rows. -/
theorem tree?_of_mem_walk {s t : Tree} (h : table.tree? i = some t) (hs : s ∈ t.walk) :
    table.tree? s.node.id = some s := by
  induction i using rows_induction table generalizing t with
  | step i ih =>
    rw [Tree.walk_eq, List.mem_cons] at hs
    rcases hs with rfl | hs
    · rw [id_of_tree? h, h]
    · obtain ⟨c, hc, hs⟩ := List.mem_flatMap.mp hs
      rw [children_of_tree? h] at hc
      obtain ⟨j, hj, hc⟩ := List.mem_filterMap.mp hc
      exact ih j hj hc hs

theorem walkFrom_of_tree? {t : Tree} (h : table.tree? i = some t) :
    table.walkFrom i = t.walk.map (·.node.id) := by
  rw [walkFrom, h]
  rfl

/-- **A walk meets a row, and then what the walks from its children meet, in order.** -/
theorem walkFrom_eq (hi : i < table.size) :
    table.walkFrom i = i :: (table.rowsUnder i).flatMap table.walkFrom := by
  have hbelow (rows : List Nat) :
      ((rows.filterMap table.tree?).flatMap Tree.walk).map (·.node.id)
        = rows.flatMap table.walkFrom := by
    induction rows with
    | nil => rfl
    | cons j rows ih =>
      rw [List.flatMap_cons, ← ih]
      cases hj : table.tree? j with
      | none => rw [List.filterMap_cons_none hj, walkFrom, hj]; rfl
      | some c =>
        rw [List.filterMap_cons_some hj, List.flatMap_cons, List.map_append, walkFrom_of_tree? hj]
  obtain ⟨t, ht⟩ := exists_tree? hi
  rw [walkFrom_of_tree? ht, Tree.walk_eq, List.map_cons, id_of_tree? ht, children_of_tree? ht,
    hbelow]

theorem lt_size_of_mem_rowsUnder (h : j ∈ table.rowsUnder i) : j < table.size :=
  lt_size_of_parent? (mem_naming_iff.mp h).2

theorem mem_walkFrom_self (hi : i < table.size) : i ∈ table.walkFrom i := by
  rw [walkFrom_eq hi]
  exact List.mem_cons_self

theorem below_of_mem_walkFrom (hi : i < table.size) (h : j ∈ table.walkFrom i) :
    table.Below i j := by
  induction i using rows_induction table with
  | step i ih =>
    rw [walkFrom_eq hi, List.mem_cons] at h
    rcases h with rfl | h
    · exact .refl
    · obtain ⟨c, hc, hj⟩ := List.mem_flatMap.mp h
      have hchild : table.Below i c := .under (mem_naming_iff.mp hc).2 .refl
      exact hchild.trans (ih c hc (lt_size_of_mem_rowsUnder hc) hj)

/-- With a row, a walk meets the rows that name it. -/
theorem mem_walkFrom_of_parent? (hfirst : table.ParentsFirst) {p : Nat} (hi : i < table.size)
    (hp : table.parent? j = some p) (h : p ∈ table.walkFrom i) : j ∈ table.walkFrom i := by
  induction i using rows_induction table with
  | step i ih =>
    rw [walkFrom_eq hi, List.mem_cons] at h ⊢
    refine Or.inr (List.mem_flatMap.mpr ?_)
    rcases h with rfl | h
    · have hj : j ∈ table.rowsUnder p := mem_naming_iff.mpr ⟨hfirst j p hp, hp⟩
      exact ⟨j, hj, mem_walkFrom_self (lt_size_of_parent? hp)⟩
    · obtain ⟨c, hc, hpc⟩ := List.mem_flatMap.mp h
      exact ⟨c, hc, ih c hc (lt_size_of_mem_rowsUnder hc) hpc⟩

theorem mem_walkFrom_iff (hfirst : table.ParentsFirst) (hi : i < table.size) :
    j ∈ table.walkFrom i ↔ table.Below i j := by
  refine ⟨below_of_mem_walkFrom hi, ?_⟩
  intro h
  induction h with
  | refl => exact mem_walkFrom_self hi
  | under hp _ ih => exact mem_walkFrom_of_parent? hfirst hi hp ih

/-- No row is below two children of one row. -/
theorem eq_of_below (hfirst : table.ParentsFirst) {c d : Nat} (hc : c ∈ table.rowsUnder i)
    (hd : d ∈ table.rowsUnder i) (hcd : table.Below c d) : c = d := by
  obtain ⟨hlt, -⟩ := mem_naming_iff.mp hc
  obtain ⟨-, hdp⟩ := mem_naming_iff.mp hd
  cases hcd with
  | refl => rfl
  | under hp h =>
    -- Otherwise `c` would be above the row that it is under.
    obtain rfl := Option.some.inj (hp.symm.trans hdp)
    have hle := h.le hfirst
    omega

theorem nodup_walkFrom (hfirst : table.ParentsFirst) (hi : i < table.size) :
    (table.walkFrom i).Nodup := by
  induction i using rows_induction table with
  | step i ih =>
    have hnodup : (table.rowsUnder i).Nodup := List.Nodup.filter _ List.nodup_range'
    rw [walkFrom_eq hi, List.nodup_cons, List.nodup_flatMap]
    refine ⟨?_, fun c hc => ih c hc (lt_size_of_mem_rowsUnder hc), ?_⟩
    · intro h
      obtain ⟨c, hc, hic⟩ := List.mem_flatMap.mp h
      have hle := (below_of_mem_walkFrom (lt_size_of_mem_rowsUnder hc) hic).le hfirst
      have hlt := (mem_naming_iff.mp hc).1
      omega
    · refine hnodup.imp_of_mem ?_
      intro c d hc hd hne j hjc hjd
      have hbelow := (below_of_mem_walkFrom (lt_size_of_mem_rowsUnder hc) hjc).total
        (below_of_mem_walkFrom (lt_size_of_mem_rowsUnder hd) hjd)
      rcases hbelow with h | h
      · exact hne (eq_of_below hfirst hc hd h)
      · exact hne (eq_of_below hfirst hd hc h).symm

/-- **The walk from a row of a table comes to an end, and is the pre-order of what is below the row**:
the row, and then the walks from the rows that name it, in order.  It meets each row below the row
once, and no other row. -/
theorem walk_rows_once (hfirst : table.ParentsFirst) (hi : i < table.size) :
    ∃ t, table.tree? i = some t ∧ (∀ met, Tree.Meets [t] met ↔ met = t.walk) ∧
      t.walk.map some = (table.walkFrom i).map table.tree? ∧
      table.walkFrom i = i :: (table.naming i 0).flatMap table.walkFrom ∧
      (table.walkFrom i).Nodup ∧ ∀ j, j ∈ table.walkFrom i ↔ table.Below i j := by
  obtain ⟨t, ht⟩ := exists_tree? hi
  refine ⟨t, ht, fun met => Tree.meets_singleton_iff, ?_, ?_, nodup_walkFrom hfirst hi,
    fun j => mem_walkFrom_iff hfirst hi⟩
  · rw [walkFrom_of_tree? ht, List.map_map]
    exact List.map_congr_left (fun s hs => (tree?_of_mem_walk ht hs).symm)
  · rw [naming_zero_eq hfirst, walkFrom_eq hi]

/-- A root with two children; the row of the first child's child stands behind that of the second. -/
def lateRows : Table :=
  #[⟨⟨"module", 0, 3, 0, 0, [], 0⟩, none⟩,
    ⟨⟨"call", 0, 2, 0, 0, [], 1⟩, some 0⟩,
    ⟨⟨"identifier", 2, 3, 0, 0, [], 2⟩, some 0⟩,
    ⟨⟨"identifier", 0, 1, 0, 0, [], 3⟩, some 1⟩]

/-- The row that stands last is met before the second child. -/
theorem walk_lateRows :
    lateRows.ParentsFirst ∧ lateRows.walkFrom 0 = [0, 1, 3, 2] ∧ (lateRows.walkFrom 0).Nodup ∧
      ∃ t, lateRows.tree? 0 = some t ∧ Tree.Meets [t] t.walk := by
  have hfirst : lateRows.ParentsFirst := by decide +kernel
  obtain ⟨t, ht, hmeets, -, -, hnodup, -⟩ := walk_rows_once hfirst (i := 0) (by decide)
  exact ⟨hfirst, by decide +kernel, hnodup, t, ht, (hmeets t.walk).mpr rfl⟩

end Table

end SourceIndex
