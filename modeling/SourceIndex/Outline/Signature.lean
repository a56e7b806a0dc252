import SourceIndex.SyntaxTree.Basic
import SourceIndex.LanguageTable.Basic
import SourceIndex.Text.Blank
import SourceIndex.Text.Search

/-!
# Signatures and declared types

The signature of a function is its text up to the delimiter of its body.  The delimiter is searched
in the bytes, from the end of the parameter list on, so that one inside a parameter or before it is
not taken for the body's.  A declaration without a body ends in a semicolon instead.
-/

namespace SourceIndex.Tree

/-- Where in the bytes of the tree the search for the body's delimiter begins. -/
def searchOffset (t : Tree) : Int :=
  match t.child? "parameters" <|> t.child? "name" with
  | some anchor => (anchor.node.endByte : Int) - t.node.startByte
  | none => 0

/-- Removes the semicolon that ends a declaration without a body. -/
def dropSemicolon (text : List Char) : List Char :=
  match text.reverse with
  | ';' :: rest => Text.trimRight rest.reverse
  | _ => text

/-- The declaration up to the body's delimiter. -/
def signature (table : LanguageTable) (source : Bytes) (t : Tree) : List Char :=
  let bytes := t.node.bytes source
  match Text.indexOfFrom? (Utf8.encode table.bodyDelimiter.toList) bytes t.searchOffset with
  | some cut => Text.trim (Utf8.decode (bytes.take cut))
  | none => dropSemicolon (Text.trim (Utf8.decode bytes))

/-- Removes the colon that begins a type annotation, and the white space around the type. -/
def bareType (text : List Char) : List Char :=
  Text.trim ((Text.trim text).dropWhile (· == ':'))

/-- The text of a type, without the colon of an annotation. -/
def typeText (table : LanguageTable) (source : Bytes) (t : Tree) : List Char :=
  if table.isA t.kind .annotatedType then bareType (t.text source)
  else Text.trim (t.text source)

/-- The type declared under a field; `default` if none is declared. -/
def declaredType (table : LanguageTable) (source : Bytes) (field : String) (default : List Char)
    (t : Tree) : List Char :=
  match t.child? field with
  | none => default
  | some c =>
    match typeText table source c with
    | [] => default
    | text => text

end SourceIndex.Tree
