import SourceIndex.SyntaxTree.Basic
import SourceIndex.LanguageTable.Basic

/-!
# Visibility

The visibility of a function is the keyword that comes first in its modifiers.  Modifiers without a
keyword are passed over.
-/

namespace SourceIndex

/-- The keywords that state a visibility. -/
def visibilityKeywords : List String := ["public", "private", "protected"]

/-- The keyword that a text begins with. -/
def keywordAt? (text : List Char) : Option String :=
  visibilityKeywords.find? (fun k => k.toList.isPrefixOf text)

/-- The keyword whose first occurrence in a text comes before that of every other. -/
def firstKeyword? : List Char → Option String
  | [] => none
  | c :: rest =>
    match keywordAt? (c :: rest) with
    | some k => some k
    | none => firstKeyword? rest

/-- The visibility of a function: that of the first child that states one. -/
def Tree.visibility (table : LanguageTable) (source : Bytes) (t : Tree) : String :=
  (t.children.findSome? (fun c =>
    if table.isA c.kind .visibility then firstKeyword? (c.text source) else none)).getD "package"

end SourceIndex
