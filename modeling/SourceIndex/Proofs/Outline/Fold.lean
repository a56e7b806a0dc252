import SourceIndex.LanguageTable.BuiltIn
import SourceIndex.Outline.OfTree
import SourceIndex.Proofs.SyntaxTree

/-!
# The outline of a tree from the outlines of its children

The outline is read off a walk with a worklist.  It could as well be made by recursion: each of its
lists is **what the topmost node gives by itself, followed by the lists of the children in order**
(`folds_extract`).  What a node gives by itself is its share (`Tree.share`), which the first category
that its kind is listed under decides, and which no node above or below has a say in.  So nothing
that lies within a function, a class, an import or a declaration without a name is lost, repeated or
moved.
-/

namespace SourceIndex

/-- What a node gives to the lists of an outline by itself. -/
structure Share where
  functions : List FunctionInfo := []
  classes : List String := []
  imports : List String := []

namespace Tree

/-- The share of the topmost node.  Of the categories that its kind is listed under, the first
decides; a function or a class without a name gives nothing. -/
def share (table : LanguageTable) (source : Bytes) (t : Tree) : Share :=
  match Category.all.find? (table.isA t.kind) with
  | some .function =>
    if t.fieldText "name" source = [] then {} else { functions := [t.functionInfo table source] }
  | some .classDecl =>
    if t.fieldText "name" source = [] then {}
    else { classes := [String.ofList (t.fieldText "name" source)] }
  | some .importDecl => { imports := [String.ofList (t.text source)] }
  | _ => {}

theorem isOf_eq (table : LanguageTable) (category : Category) (t : Tree) :
    t.isOf table category = (Category.all.find? (table.isA t.kind) == some category) := by
  rw [isOf, LanguageTable.category?_eq_find?]

/-- The share of a node lists what the node is, if it is anything that an outline lists. -/
theorem share_eq (table : LanguageTable) (source : Bytes) (t : Tree) :
    t.share table source
      = ⟨(t.ownFunction? table source).toList, (t.ownClass? table source).toList,
          (t.ownImport? table source).toList⟩ := by
  unfold share ownFunction? ownClass? ownImport? declaredName
  simp only [isOf_eq]
  cases Category.all.find? (table.isA t.kind) with
  | none => rfl
  | some category => cases category <;> cases t.fieldText "name" source <;> rfl

/-- Whether the topmost node declares a function with a name. -/
def IsNamedFunction (table : LanguageTable) (source : Bytes) (t : Tree) : Prop :=
  t.isOf table .function = true ∧ t.declaredName source ≠ []

theorem ownFunction?_eq_some {table : LanguageTable} {source : Bytes} {t : Tree}
    {f : FunctionInfo} :
    t.ownFunction? table source = some f ↔
      t.IsNamedFunction table source ∧ t.functionInfo table source = f := by
  unfold ownFunction? IsNamedFunction
  cases t.isOf table .function <;> cases t.declaredName source <;> simp

/-! ## What is picked from a walk -/

/-- What a walk picks out of a tree is what it picks of the topmost node, and then what walks pick
out of the children. -/
theorem filterMap_walk {α : Type} (pick : Tree → Option α) (t : Tree) :
    t.walk.filterMap pick
      = (pick t).toList ++ t.children.flatMap (fun c => c.walk.filterMap pick) := by
  have hbelow : (t.children.flatMap preorder).filterMap pick
      = t.children.flatMap (fun c => c.walk.filterMap pick) := by
    simp only [List.filterMap_flatMap, walk_eq_preorder]
  rw [walk_eq_preorder, preorder_eq, ← hbelow]
  cases hp : pick t with
  | none => rw [List.filterMap_cons_none hp]; rfl
  | some a => rw [List.filterMap_cons_some hp]; rfl

/-- What is picked out of a tree stands together in what is picked out of a tree around it. -/
theorem Within.filterMap_walk_infix {α : Type} {s t : Tree} (h : s.Within t)
    (pick : Tree → Option α) : s.walk.filterMap pick <:+: t.walk.filterMap pick := by
  induction h with
  | refl => exact List.infix_rfl
  | @inside t child hc _ ih =>
    obtain ⟨before, after, hchildren⟩ := List.append_of_mem hc
    rw [filterMap_walk pick t, hchildren, List.flatMap_append, List.flatMap_cons]
    refine ih.trans ⟨(pick t).toList ++ before.flatMap (fun c => c.walk.filterMap pick),
      after.flatMap (fun c => c.walk.filterMap pick), ?_⟩
    simp only [List.append_assoc]

end Tree

/-! ## The outline -/

/-- The outline of a tree is the share of its topmost node, and then the outlines of the trees
`below` in order. -/
structure Folds (table : LanguageTable) (source : Bytes) (language fileName : String) (t : Tree)
    (below : List Tree) : Prop where
  functions : (Outline.extract table source language fileName t).value.functions
    = (t.share table source).functions ++
        below.flatMap (fun c => (Outline.extract table source language fileName c).value.functions)
  classes : (Outline.extract table source language fileName t).value.classes
    = (t.share table source).classes ++
        below.flatMap (fun c => (Outline.extract table source language fileName c).value.classes)
  imports : (Outline.extract table source language fileName t).value.imports
    = (t.share table source).imports ++
        below.flatMap (fun c => (Outline.extract table source language fileName c).value.imports)

/-- One outline stands as a whole in another: no list of it is interrupted there. -/
structure Outline.Inside (inner outer : Outline) : Prop where
  functions : inner.functions <:+: outer.functions
  classes : inner.classes <:+: outer.classes
  imports : inner.imports <:+: outer.imports

theorem folds_children (table : LanguageTable) (source : Bytes) (language fileName : String)
    (t : Tree) : Folds table source language fileName t t.children where
  functions := by
    rw [Tree.share_eq]
    exact Tree.filterMap_walk _ t
  classes := by
    rw [Tree.share_eq]
    exact Tree.filterMap_walk _ t
  imports := by
    rw [Tree.share_eq]
    exact Tree.filterMap_walk _ t

/-- **The outline of a tree is the share of its topmost node, and then the outlines of its children in
order.**  The same holds of the rows of a table, wherever the rows that name a row stand; and the
outline of any tree within stands as a whole in that of the tree. -/
theorem folds_extract (table : LanguageTable) (source : Bytes) (language fileName : String) :
    (∀ t : Tree, Folds table source language fileName t t.children) ∧
      (∀ (rows : Table) (i : Nat) (t : Tree), rows.tree? i = some t →
        Folds table source language fileName t ((rows.rowsUnder i).filterMap rows.tree?)) ∧
      ∀ s t : Tree, s.Within t →
        (Outline.extract table source language fileName s).value.Inside
          (Outline.extract table source language fileName t).value := by
  refine ⟨folds_children table source language fileName, ?_, ?_⟩
  · intro rows i t ht
    rw [← Table.children_of_tree? ht]
    exact folds_children table source language fileName t
  · intro s t h
    exact ⟨h.filterMap_walk_infix _, h.filterMap_walk_infix _, h.filterMap_walk_infix _⟩

/-- A class with a method, and a function after it, over the source `A g f`; the row of the function
stands before that of the method. -/
def scatteredRows : Table :=
  #[⟨⟨"module", 0, 5, 0, 0, [], 0⟩, none⟩,
    ⟨⟨"class_definition", 0, 3, 0, 0, [], 1⟩, some 0⟩,
    ⟨⟨"function_definition", 4, 5, 0, 0, [], 2⟩, some 0⟩,
    ⟨⟨"identifier", 0, 1, 0, 0, ["name"], 3⟩, some 1⟩,
    ⟨⟨"identifier", 4, 5, 0, 0, ["name"], 4⟩, some 2⟩,
    ⟨⟨"function_definition", 2, 3, 0, 0, [], 5⟩, some 1⟩,
    ⟨⟨"identifier", 2, 3, 0, 0, ["name"], 6⟩, some 5⟩]

/-- The method comes before the function in the outline, as the class does. -/
theorem folds_scatteredRows :
    ∃ t, scatteredRows.tree? 0 = some t ∧ scatteredRows.rowsUnder 0 = [1, 2] ∧
      Folds LanguageTable.python (Utf8.encode "A g f".toList) "python" "scattered.py" t
        ((scatteredRows.rowsUnder 0).filterMap scatteredRows.tree?) ∧
      (Outline.extract LanguageTable.python (Utf8.encode "A g f".toList) "python" "scattered.py"
        t).value.functions.map FunctionInfo.name = ["g", "f"] := by
  have hsome : (scatteredRows.tree? 0).isSome = true := by decide +kernel
  have hnames : ((scatteredRows.tree? 0).map (fun t => (Outline.extract LanguageTable.python
      (Utf8.encode "A g f".toList) "python" "scattered.py" t).value.functions.map
        FunctionInfo.name)) = some ["g", "f"] := by decide +kernel
  obtain ⟨t, ht⟩ := Option.isSome_iff_exists.mp hsome
  rw [ht, Option.map_some] at hnames
  exact ⟨t, ht, by decide +kernel, (folds_extract _ _ _ _).2.1 scatteredRows 0 t ht,
    Option.some.inj hnames⟩

end SourceIndex
