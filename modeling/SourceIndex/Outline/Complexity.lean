import SourceIndex.SyntaxTree.Walk
import SourceIndex.LanguageTable.Basic

/-!
# Complexity

An approximation of cyclomatic complexity: one more than the number of branching constructs
anywhere in a tree.  The branches of a nested function count for the enclosing one too.
-/

namespace SourceIndex.Tree

/-- One more than the number of branching constructs in the tree. -/
def complexity (table : LanguageTable) (t : Tree) : Nat :=
  t.walk.countP (fun n => table.isA n.kind .branch) + 1

end SourceIndex.Tree
