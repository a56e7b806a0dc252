import SourceIndex.SyntaxTree.Basic

/-!
# Trees as tables of rows

A tree may be stored as a list of rows, one for each node, in which a row names the row of its
parent, and a parent stands before its children.  The children of a row are the rows that name it,
in the order of the list, whatever rows stand between them.

The tree is put together from the last row backwards: when a row is reached, all rows that name it
or a row below it have been dealt with, so its children are complete.
-/

namespace SourceIndex

/-- One row of a table. -/
structure Row where
  /-- What is known of the node; its `id` is the number of the row. -/
  node : Node
  /-- The number of the parent's row; the root has none. -/
  parent : Option Nat
deriving Inhabited

/-- A tree stored as rows. -/
abbrev Table := Array Row

namespace Table

/-- For each row, by number, the trees that have been found below it so far. -/
abbrev Pending := Array (List Tree)

/-- The tree of row `i`, once everything below the row has been found. -/
def Pending.tree (pending : Pending) (i : Nat) (row : Row) : Tree :=
  .mk { row.node with id := i } (pending.getD i [])

/-- Hands the tree of row `i` to its parent. -/
def Pending.settle (pending : Pending) (i : Nat) (row : Row) : Pending :=
  match row.parent with
  | none => pending
  | some p => pending.modify p (pending.tree i row :: ·)

/-- What has been found once the rows from number `first` on, which are `rows`, are settled. -/
def pendingFrom (size first : Nat) (rows : List Row) : Pending :=
  (rows.zipIdx first).foldr (fun (row, i) pending => pending.settle i row)
    (Array.replicate size [])

/-- The tree below the row of number `i`, the row's own node on top. -/
def tree? (table : Table) (i : Nat) : Option Tree :=
  table[i]?.map (fun row =>
    (pendingFrom table.size (i + 1) (table.toList.drop (i + 1))).tree i row)

end Table

end SourceIndex
