import SourceIndex.SyntaxTree.Basic

/-!
# Walking a tree

`preorder` lists a tree the way one says it: the tree itself, then the listings of its children in
order.  `walk` produces the same list from a worklist, so that the depth of a tree, which a source
file decides, never becomes depth of recursion.  **The two agree** (`walk_eq_preorder`).

## Why the walk stops

The trees on the worklist have fewer nodes in all after each step, because the tree that is taken
off is replaced by its children.
-/

namespace SourceIndex.Tree

/-! ## Pre-order -/

mutual

/-- A tree, then everything below it, each child's share before the next child's. -/
def preorder : Tree → List Tree
  | mk n ts => mk n ts :: preorderAll ts

/-- The listings of several trees one after another. -/
def preorderAll : List Tree → List Tree
  | [] => []
  | t :: ts => preorder t ++ preorderAll ts

end

theorem preorderAll_eq_flatMap (ts : List Tree) : preorderAll ts = ts.flatMap preorder := by
  induction ts with
  | nil => rfl
  | cons t ts ih => rw [preorderAll, ih, List.flatMap_cons]

theorem preorder_eq (t : Tree) : t.preorder = t :: t.children.flatMap preorder := by
  cases t with
  | mk n ts => rw [preorder, preorderAll_eq_flatMap]; rfl

theorem preorderAll_append (ts us : List Tree) :
    preorderAll (ts ++ us) = preorderAll ts ++ preorderAll us := by
  simp [preorderAll_eq_flatMap]

/-! ## The worklist -/

theorem length_preorder (t : Tree) :
    t.preorder.length = (preorderAll t.children).length + 1 := by
  cases t with
  | mk n ts => rw [preorder]; rfl

/-- Walks the trees of a worklist; `seen` holds what was met before, in reverse. -/
def walkOnto (seen : List Tree) : List Tree → List Tree
  | [] => seen.reverse
  | t :: rest => walkOnto (t :: seen) (t.children ++ rest)
termination_by worklist => (preorderAll worklist).length
decreasing_by
  rw [preorderAll_append, preorderAll, List.length_append, List.length_append, length_preorder]
  omega

/-- Every node of a tree, each as the tree that it tops, in the order of the source. -/
def walk (t : Tree) : List Tree :=
  walkOnto [] [t]

theorem walkOnto_eq (seen worklist : List Tree) :
    walkOnto seen worklist = seen.reverse ++ preorderAll worklist := by
  fun_induction walkOnto seen worklist with
  | case1 seen => simp [preorderAll]
  | case2 seen t rest ih =>
    rw [ih, preorderAll_append, preorderAll, preorder_eq, preorderAll_eq_flatMap t.children]
    simp

/-- The worklist meets the nodes in pre-order. -/
theorem walk_eq_preorder (t : Tree) : t.walk = t.preorder := by
  rw [walk, walkOnto_eq]
  simp [preorderAll]

end SourceIndex.Tree
