import SourceIndex.FileSystem.Basic
import SourceIndex.Grammar.Pack

/-!
# The world around the program

What the program is given and does not decide: the grammars at hand and the file system.
-/

namespace SourceIndex

/-- The grammars at hand, and the file system. -/
structure World where
  pack : GrammarPack
  fs : FileSystem

end SourceIndex
