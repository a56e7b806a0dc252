import SourceIndex.Outline.Basic
import SourceIndex.Outline.Signature

/-!
# Parameters

Grammars keep the name of a parameter in different places: in the parameter itself, in one of three
fields, in a child that is a name, or in the declarator of a variadic parameter.
-/

namespace SourceIndex.Tree

/-- What stands for a name or type that the tree does not give. -/
def unknown : List Char := "unknown".toList

/-- A text, or `unknown` if it is empty. -/
def orUnknown : List Char → List Char
  | [] => unknown
  | text => text

/-- The fields that may hold a parameter's name, the first to be looked at first. -/
def nameFields : List String := ["name", "pattern", "left"]

/-- The name that a child of a parameter gives it, if the child is of a kind that does. -/
def nameFromChild? (table : LanguageTable) (source : Bytes) (c : Tree) : Option (List Char) :=
  if table.nameLike.contains c.kind then some (c.text source)
  else if c.kind == "variable_declarator" then some (orUnknown (c.fieldText "name" source))
  else none

/-- The name of a parameter. -/
def paramName (table : LanguageTable) (source : Bytes) (t : Tree) : List Char :=
  if table.nameLike.contains t.kind then t.text source
  else
    match nameFields.findSome? t.child? with
    | some c => orUnknown (c.text source)
    | none => (t.children.findSome? (nameFromChild? table source)).getD unknown

/-- What an outline says of a parameter. -/
def param (table : LanguageTable) (source : Bytes) (t : Tree) : Param where
  type := String.ofList (t.declaredType table source "type" unknown)
  name := String.ofList (t.paramName table source)

/-- The parameters of a function: those children of its parameter list that are parameters. -/
def params (table : LanguageTable) (source : Bytes) (t : Tree) : List Param :=
  match t.child? "parameters" with
  | none => []
  | some list =>
    (list.children.filter (fun c => table.isA c.kind .parameter)).map (param table source)

end SourceIndex.Tree
