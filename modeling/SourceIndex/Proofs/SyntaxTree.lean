import SourceIndex.SyntaxTree.Table
import SourceIndex.SyntaxTree.Walk

/-!
# Trees, and the rows they are put together from

A tree lies *within* another if it is the other or lies within one of its children.

A table of rows lists the nodes of a tree in any order that has parents before children.  However
the rows stand, **the children of a row are the rows after it that name it, in their order**
(`Table.tree?_eq`).  The table is read from the last row backwards, so the invariant speaks of the
rows from some number on (`Table.getD_pendingFrom`).
-/

namespace SourceIndex

/-- `Within s t`: the tree `s` is `t`, or lies within a child of `t`. -/
inductive Tree.Within (s : Tree) : Tree → Prop
  | refl : Within s s
  | inside {t child : Tree} (hc : child ∈ t.children) (h : Within s child) : Within s t

namespace Table

/-- The numbers of the rows, from number `first` on, that name row `i` as their parent. -/
def naming (table : Table) (i first : Nat) : List Nat :=
  (List.range' first (table.size - first)).filter
    (fun j => (table[j]?.bind Row.parent) == some i)

/-- The numbers of the rows that name row `i` and stand after it. -/
def rowsUnder (table : Table) (i : Nat) : List Nat := table.naming i (i + 1)

theorem naming_of_size_le {table : Table} {first : Nat} (h : table.size ≤ first) (i : Nat) :
    table.naming i first = [] := by
  have hnone : table.size - first = 0 := by omega
  rw [naming, hnone, List.range'_zero, List.filter_nil]

theorem naming_cons {table : Table} {first : Nat} {row : Row} (h : table[first]? = some row)
    (i : Nat) :
    table.naming i first
      = if row.parent = some i then first :: table.naming i (first + 1)
        else table.naming i (first + 1) := by
  obtain ⟨hlt, -⟩ := Array.getElem?_eq_some_iff.mp h
  have hlen : table.size - first = (table.size - (first + 1)) + 1 := by omega
  rw [naming, hlen, List.range'_succ, List.filter_cons, h]
  simp only [Option.bind_some, beq_iff_eq]
  rfl

theorem pendingFrom_cons (size first : Nat) (row : Row) (rest : List Row) :
    pendingFrom size first (row :: rest) = (pendingFrom size (first + 1) rest).settle first row := by
  rw [pendingFrom, List.zipIdx_cons, List.foldr_cons, pendingFrom]

theorem size_pendingFrom (size first : Nat) (rows : List Row) :
    (pendingFrom size first rows).size = size := by
  induction rows generalizing first with
  | nil => simp [pendingFrom]
  | cons row rest ih =>
    rw [pendingFrom_cons]
    unfold Pending.settle
    split
    · exact ih (first + 1)
    · rw [Array.size_modify]
      exact ih (first + 1)

/-- Settling a row adds its tree to what has been found below its parent, and nothing else. -/
theorem getD_settle {pending : Pending} {i p : Nat} {row : Row} (hp : p < pending.size) :
    (pending.settle i row).getD p []
      = if row.parent = some p then pending.tree i row :: pending.getD p []
        else pending.getD p [] := by
  unfold Pending.settle
  cases hrow : row.parent with
  | none => simp
  | some q =>
    simp only [Array.getD_eq_getD_getElem?, Array.getElem?_modify, Option.some.injEq]
    by_cases hq : q = p
    · rw [if_pos hq, if_pos hq, Array.getElem?_eq_getElem hp]
      rfl
    · rw [if_neg hq, if_neg hq]

/-- Once the rows from number `first` on are settled, what has been found below a row are the trees
of those among them that name it. -/
theorem getD_pendingFrom (table : Table) (first p : Nat) (hp : p < table.size) :
    (pendingFrom table.size first (table.toList.drop first)).getD p []
      = (table.naming p first).filterMap table.tree? := by
  -- From the last row backwards: `left` is how many rows are still to be settled.
  generalize hleft : table.size - first = left
  induction left generalizing first with
  | zero =>
    have hle : table.size ≤ first := by omega
    rw [naming_of_size_le hle, List.drop_eq_nil_of_le (by simpa using hle)]
    simp [pendingFrom, hp]
  | succ left ih =>
    have hlt : first < table.size := by omega
    have hrow : table[first]? = some table[first] := Array.getElem?_eq_getElem hlt
    have hdrop : table.toList.drop first = table[first] :: table.toList.drop (first + 1) := by
      rw [List.drop_eq_getElem_cons (by simpa using hlt), Array.getElem_toList]
    have htree : table.tree? first = some ((pendingFrom table.size (first + 1)
        (table.toList.drop (first + 1))).tree first table[first]) := by
      rw [tree?, hrow, Option.map_some]
    have hrest := ih (first + 1) (by omega)
    rw [hdrop, pendingFrom_cons, getD_settle (by rw [size_pendingFrom]; exact hp), hrest,
      naming_cons hrow]
    split
    · rw [List.filterMap_cons_some htree]
    · rfl

/-- **The tree of a row has for its children the trees of the rows that name it**, whatever rows
stand between them. -/
theorem tree?_eq (table : Table) (i : Nat) :
    table.tree? i = table[i]?.map (fun row =>
      .mk { row.node with id := i } ((table.rowsUnder i).filterMap table.tree?)) := by
  rw [tree?]
  cases hrow : table[i]? with
  | none => rfl
  | some row =>
    obtain ⟨hlt, -⟩ := Array.getElem?_eq_some_iff.mp hrow
    rw [Option.map_some, Option.map_some, Pending.tree, getD_pendingFrom table (i + 1) i hlt,
      rowsUnder]

theorem children_of_tree? {table : Table} {i : Nat} {t : Tree} (h : table.tree? i = some t) :
    t.children = (table.rowsUnder i).filterMap table.tree? := by
  rw [tree?_eq] at h
  obtain ⟨row, -, rfl⟩ := Option.map_eq_some_iff.mp h
  rfl

end Table

end SourceIndex
