import SourceIndex.Text.Utf8

/-!
# Concrete trees of source files

A parser divides a source file into nodes.  A node has a kind, which its grammar names, a stretch
of bytes, a stretch of rows and children, and its parent may hold it under one or more field names.

The byte offsets need not lie inside the source, nor be in order: the text of a node is whatever
the offsets cut out of the source, and empty if they cut out nothing.
-/

namespace SourceIndex

/-- What a parser says about one node, its children apart. -/
structure Node where
  /-- The name the grammar gives to nodes of this sort. -/
  kind : String
  /-- The offset of the first byte. -/
  startByte : Nat
  /-- The offset after the last byte. -/
  endByte : Nat
  /-- The row of the first byte, counted from zero. -/
  startRow : Nat
  /-- The row of the last byte, counted from zero. -/
  endRow : Nat
  /-- The field names under which the parent holds the node. -/
  fields : List String
  /-- What tells the node from the other nodes of its tree. -/
  id : Nat
deriving DecidableEq, Inhabited

/-- The bytes that a node covers. -/
def Node.bytes (node : Node) (source : Bytes) : Bytes :=
  source.slice node.startByte node.endByte

/-- The text that a node covers. -/
def Node.text (node : Node) (source : Bytes) : List Char :=
  Utf8.decode (node.bytes source)

/-- A node with the trees below it. -/
inductive Tree where
  | mk (node : Node) (children : List Tree)
deriving Inhabited

namespace Tree

/-- The topmost node. -/
def node : Tree → Node
  | mk n _ => n

/-- The trees directly below the topmost node, in order. -/
def children : Tree → List Tree
  | mk _ ts => ts

/-- The kind of the topmost node. -/
abbrev kind (t : Tree) : String := t.node.kind

/-- The text that the topmost node covers. -/
def text (t : Tree) (source : Bytes) : List Char := t.node.text source

/-- The first child that is held under the field name `field`. -/
def child? (t : Tree) (field : String) : Option Tree :=
  t.children.find? (fun c => c.node.fields.contains field)

/-- The text of the first child under a field name; empty if there is none. -/
def fieldText (t : Tree) (field : String) (source : Bytes) : List Char :=
  match t.child? field with
  | some c => c.text source
  | none => []

end Tree

end SourceIndex
