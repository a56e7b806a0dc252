import SourceIndex.SyntaxTree.Walk

/-!
# A tree moved as a whole

When something is put in front of a source, every node of its tree stands further on in the bytes
and further down in the rows, by the same amounts (`shift`).  The move keeps the shape of the tree:
**a walk meets the same nodes in the same order** (`walk_shift`), and what was under a field is
still under it (`child?_shift`).
-/

namespace SourceIndex

/-- The same node, `bytes` further on and `rows` further down. -/
def Node.shift (bytes rows : Nat) (n : Node) : Node :=
  { n with
    startByte := n.startByte + bytes
    endByte := n.endByte + bytes
    startRow := n.startRow + rows
    endRow := n.endRow + rows }

namespace Tree

mutual

/-- The same tree with every node `bytes` further on and `rows` further down. -/
def shift (bytes rows : Nat) : Tree → Tree
  | mk n ts => mk (n.shift bytes rows) (shiftAll bytes rows ts)

/-- Several trees, all moved alike. -/
def shiftAll (bytes rows : Nat) : List Tree → List Tree
  | [] => []
  | t :: ts => shift bytes rows t :: shiftAll bytes rows ts

end

variable {bytes rows : Nat}

theorem shiftAll_eq_map (ts : List Tree) : shiftAll bytes rows ts = ts.map (shift bytes rows) := by
  induction ts with
  | nil => rfl
  | cons t ts ih => rw [shiftAll, ih, List.map_cons]

@[simp] theorem node_shift (t : Tree) : (t.shift bytes rows).node = t.node.shift bytes rows := by
  cases t with
  | mk n ts => rw [shift]; rfl

@[simp] theorem children_shift (t : Tree) :
    (t.shift bytes rows).children = t.children.map (shift bytes rows) := by
  cases t with
  | mk n ts => rw [shift, ← shiftAll_eq_map]; rfl

@[simp] theorem kind_shift (t : Tree) : (t.shift bytes rows).kind = t.kind := by
  rw [kind, node_shift]
  rfl

theorem child?_shift (t : Tree) (field : String) :
    (t.shift bytes rows).child? field = (t.child? field).map (shift bytes rows) := by
  have hfields : (fun c : Tree => c.node.fields.contains field) ∘ shift bytes rows
      = fun c => c.node.fields.contains field := by
    funext c
    rw [Function.comp_apply, node_shift]
    rfl
  rw [child?, child?, children_shift, List.find?_map, hfields]

mutual

theorem preorder_shift : ∀ t : Tree,
    (t.shift bytes rows).preorder = t.preorder.map (shift bytes rows)
  | mk n ts => by
    rw [shift, preorder, preorder, preorderAll_shiftAll ts, List.map_cons, shift]

theorem preorderAll_shiftAll : ∀ ts : List Tree,
    preorderAll (shiftAll bytes rows ts) = (preorderAll ts).map (shift bytes rows)
  | [] => by rw [shiftAll, preorderAll, List.map_nil]
  | t :: ts => by
    rw [shiftAll, preorderAll, preorderAll, preorder_shift t, preorderAll_shiftAll ts,
      List.map_append]

end

/-- **A walk meets the moved nodes in the order of the nodes.** -/
theorem walk_shift (t : Tree) : (t.shift bytes rows).walk = t.walk.map (shift bytes rows) := by
  rw [walk_eq_preorder, walk_eq_preorder, preorder_shift]

mutual

theorem shift_zero : ∀ t : Tree, t.shift 0 0 = t
  | mk n ts => by rw [shift, shiftAll_zero ts]; rfl

theorem shiftAll_zero : ∀ ts : List Tree, shiftAll 0 0 ts = ts
  | [] => rfl
  | t :: ts => by rw [shiftAll, shift_zero t, shiftAll_zero ts]

end

end Tree

end SourceIndex
