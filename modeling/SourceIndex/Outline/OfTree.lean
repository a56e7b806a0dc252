import SourceIndex.Outline.Complexity
import SourceIndex.Outline.Parameters
import SourceIndex.Outline.Visibility
import SourceIndex.Text.Decimal
import SourceIndex.Trace

/-!
# The outline of a tree

Every node of a tree contributes to the outline by itself: a function with a name its description, a
class with a name that name, an import its text, and any other node nothing.  The outline lists the
contributions in pre-order.  Nothing is passed over: what stands inside a function, a class or an
import, or inside a declaration without a name, contributes too.
-/

namespace SourceIndex

namespace Tree

/-! ## The contribution of one node -/

/-- The text of a declaration's name. -/
def declaredName (source : Bytes) (t : Tree) : List Char :=
  t.fieldText "name" source

/-- Whether the topmost node is of the given category. -/
def isOf (table : LanguageTable) (category : Category) (t : Tree) : Bool :=
  table.category? t.kind == some category

/-- The description of a function. -/
def functionInfo (table : LanguageTable) (source : Bytes) (t : Tree) : FunctionInfo where
  name := String.ofList (t.declaredName source)
  signature := String.ofList (t.signature table source)
  params := t.params table source
  returnType := String.ofList (t.declaredType table source table.returnTypeField "void".toList)
  lineStart := t.node.startRow + 1
  lineEnd := t.node.endRow + 1
  visibility := t.visibility table source
  complexity := t.complexity table

/-- The function that the topmost node declares. -/
def ownFunction? (table : LanguageTable) (source : Bytes) (t : Tree) : Option FunctionInfo :=
  if t.isOf table .function && !(t.declaredName source).isEmpty then
    some (t.functionInfo table source)
  else none

/-- The class that the topmost node declares. -/
def ownClass? (table : LanguageTable) (source : Bytes) (t : Tree) : Option String :=
  if t.isOf table .classDecl && !(t.declaredName source).isEmpty then
    some (String.ofList (t.declaredName source))
  else none

/-- The import that the topmost node is. -/
def ownImport? (table : LanguageTable) (source : Bytes) (t : Tree) : Option String :=
  if t.isOf table .importDecl then some (String.ofList (t.text source)) else none

/-- What is reported of a function without a name. -/
def droppedFunction? (table : LanguageTable) (source : Bytes) (t : Tree) : Option Event :=
  if t.isOf table .function && (t.declaredName source).isEmpty then
    some (.log ⟨.debug, .outline,
      "Dropping unnamed " ++ t.kind ++ " at line " ++ Text.number (t.node.startRow + 1)⟩)
  else none

end Tree

/-! ## The outline -/

/-- The outline of a tree over its source. -/
def Outline.ofTree (table : LanguageTable) (source : Bytes) (language fileName : String)
    (t : Tree) : Outline :=
  let nodes := t.walk
  { fileName
    language
    functions := nodes.filterMap (Tree.ownFunction? table source)
    classes := nodes.filterMap (Tree.ownClass? table source)
    imports := nodes.filterMap (Tree.ownImport? table source) }

/-- The outline of a tree, with a report of each function that has no name. -/
def Outline.extract (table : LanguageTable) (source : Bytes) (language fileName : String)
    (t : Tree) : Traced Outline := do
  Traced.emitAll (t.walk.filterMap (Tree.droppedFunction? table source))
  return Outline.ofTree table source language fileName t

end SourceIndex
