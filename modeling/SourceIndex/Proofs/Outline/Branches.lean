import SourceIndex.LanguageTable.BuiltIn
import SourceIndex.Proofs.Outline.Places
import SourceIndex.Proofs.SyntaxTree.Insertion

/-!
# One branch more

A branching construct is put somewhere into a tree, with nothing below it and under no field.  Every
scan of children then meets one child more: the search for a name, for the parameters and the name
of each, for a return type, for the modifiers.  None of them takes it for what it looks for, so all
that an outline says, the complexity of functions apart, is blind to it.

The complexity counts it, once for each function around it.  So **the functions at and above the
place have one branch more, and nothing else changes** (`extract_insertAt`).
-/

namespace SourceIndex

/-- The same function with one branch more. -/
def FunctionInfo.addBranch (f : FunctionInfo) : FunctionInfo :=
  { f with complexity := f.complexity + 1 }

namespace Tree

/-- A branching construct by itself: it has no children, no field holds it, its kind is listed as a
branch only, and it gives no parameter a name. -/
structure IsBareBranch (table : LanguageTable) (new : Tree) : Prop where
  children : new.children = []
  fields : new.node.fields = []
  branch : ∀ category, table.isA new.kind category = (category == .branch)
  nameLike : table.nameLike.contains new.kind = false
  declarator : (new.kind == "variable_declarator") = false

/-- The kinds of branches are kept apart from everything else in the tables of the known grammars.
-/
theorem isBareBranch_of_mem {table : LanguageTable} (htable : table ∈ LanguageTable.builtIn)
    {node : Node} (hkind : node.kind ∈ table.branches) (hfields : node.fields = []) :
    IsBareBranch table (mk node []) := by
  have hall : ∀ table ∈ LanguageTable.builtIn, ∀ kind ∈ table.branches,
      (∀ category ∈ Category.all, table.isA kind category = (category == .branch)) ∧
        table.nameLike.contains kind = false ∧ (kind == "variable_declarator") = false := by
    decide +kernel
  obtain ⟨hbranch, hname, hdeclarator⟩ := hall table htable node.kind hkind
  exact ⟨rfl, hfields, fun category => hbranch category category.mem_all, hname, hdeclarator⟩

variable {table : LanguageTable} {source : Bytes} {new : Tree}

/-! ## What the topmost node decides -/

theorem blind_typeText : Blind new (typeText table source) := by
  intro p t u hins
  unfold typeText text kind
  rw [hins.node_eq]

theorem blind_isOf (category : Category) : Blind new (isOf table category) := by
  intro p t u hins
  unfold isOf kind
  rw [hins.node_eq]

theorem blind_ownImport? : Blind new (ownImport? table source) := by
  intro p t u hins
  unfold ownImport? text
  rw [blind_isOf .importDecl p t u hins, hins.node_eq]

/-- The branches of a tree are those of its children, and the topmost node if it is one. -/
theorem countP_preorder_mk (n : Node) (ts : List Tree) :
    (mk n ts).preorder.countP (fun n => table.isA n.kind .branch)
      = (preorderAll ts).countP (fun n => table.isA n.kind .branch)
        + if table.isA n.kind .branch then 1 else 0 := by
  rw [preorder, List.countP_cons]
  rfl

namespace IsBareBranch

variable (h : IsBareBranch table new)

include h

/-! ## What is read of a declaration -/

theorem blind_fieldText (field : String) : Blind new (fun t => t.fieldText field source) := by
  intro p t u hins
  have halike := hins.alike_child? h.fields field
  change u.fieldText field source = t.fieldText field source
  unfold fieldText
  generalize t.child? field = o at halike ⊢
  generalize u.child? field = o' at halike ⊢
  cases halike with
  | same => rfl
  | inserted hbelow => exact congrArg (·.text source) hbelow.node_eq

theorem blind_declaredName : Blind new (declaredName source) :=
  h.blind_fieldText "name"

theorem blind_signature : Blind new (signature table source) := by
  intro p t u hins
  have halike := (hins.alike_child? h.fields "parameters").orElse
    (hins.alike_child? h.fields "name")
  have hoffset : u.searchOffset = t.searchOffset := by
    unfold searchOffset
    rw [hins.node_eq]
    generalize (t.child? "parameters" <|> t.child? "name") = o at halike ⊢
    generalize (u.child? "parameters" <|> u.child? "name") = o' at halike ⊢
    cases halike with
    | same => rfl
    | inserted hbelow => exact congrArg (fun n => (n.endByte : Int) - _) hbelow.node_eq
  unfold signature
  rw [hoffset, hins.node_eq]

theorem blind_declaredType (field : String) (default : List Char) :
    Blind new (declaredType table source field default) := by
  intro p t u hins
  have halike := hins.alike_child? h.fields field
  unfold declaredType
  generalize t.child? field = o at halike ⊢
  generalize u.child? field = o' at halike ⊢
  cases halike with
  | same => rfl
  | inserted hbelow => simp only [blind_typeText _ _ _ hbelow]

theorem blind_nameFromChild? : Blind new (nameFromChild? table source) := by
  intro p t u hins
  have hname : u.fieldText "name" source = t.fieldText "name" source :=
    h.blind_fieldText "name" p t u hins
  unfold nameFromChild? text kind
  rw [hins.node_eq, hname]

theorem nameFromChild?_eq_none : nameFromChild? table source new = none := by
  unfold nameFromChild?
  rw [h.nameLike, h.declarator]
  rfl

theorem blind_paramName : Blind new (paramName table source) := by
  intro p t u hins
  have halike := hins.alike_findSome? h.fields nameFields
  have hchildren : u.children.findSome? (nameFromChild? table source)
      = t.children.findSome? (nameFromChild? table source) :=
    Blind.findSome?_children h.blind_nameFromChild? h.nameFromChild?_eq_none p t u hins
  unfold paramName text kind
  rw [hins.node_eq, hchildren]
  generalize nameFields.findSome? t.child? = o at halike ⊢
  generalize nameFields.findSome? u.child? = o' at halike ⊢
  cases halike with
  | same => rfl
  | inserted hbelow => simp only [hbelow.node_eq]

theorem blind_param : Blind new (param table source) := by
  intro p t u hins
  unfold param
  rw [h.blind_declaredType "type" unknown p t u hins, h.blind_paramName p t u hins]

theorem blind_params : Blind new (params table source) := by
  intro p t u hins
  have halike := hins.alike_child? h.fields "parameters"
  unfold params
  generalize t.child? "parameters" = o at halike ⊢
  generalize u.child? "parameters" = o' at halike ⊢
  cases halike with
  | same => rfl
  | @inserted q c d hbelow =>
    have hpicked : ∀ ts : List Tree,
        (ts.filter (fun c => table.isA c.kind .parameter)).map (param table source)
          = ts.filterMap (fun c => if table.isA c.kind .parameter then some (param table source c)
              else none) := by
      intro ts
      rw [← List.filterMap_eq_map, List.filterMap_filter]
      rfl
    change (d.children.filter _).map _ = (c.children.filter _).map _
    rw [hpicked, hpicked]
    refine Blind.filterMap_children ?_ ?_ q c d hbelow
    · intro p t u hins
      simp only [kind, hins.node_eq, h.blind_param p t u hins]
    · simp only [h.branch]
      rfl

theorem blind_visibility : Blind new (visibility table source) := by
  intro p t u hins
  unfold visibility
  refine congrArg (·.getD "package") (Blind.findSome?_children ?_ ?_ p t u hins)
  · intro p t u hins
    simp only [kind, text, hins.node_eq]
  · simp only [h.branch]
    rfl

/-! ## What a declaration gives to the outline -/

theorem isOf_eq_false {category : Category} (hne : category ≠ .branch) :
    new.isOf table category = false := by
  have hfirst : Category.all.find? (· == .branch) = some .branch := by decide
  rw [isOf_eq, funext h.branch, hfirst]
  exact beq_eq_false_iff_ne.mpr (fun heq => hne (Option.some.inj heq).symm)

theorem blind_ownClass? : Blind new (ownClass? table source) := by
  intro p t u hins
  unfold ownClass?
  rw [blind_isOf .classDecl p t u hins, h.blind_declaredName p t u hins]

theorem blind_droppedFunction? : Blind new (droppedFunction? table source) := by
  intro p t u hins
  unfold droppedFunction? kind
  rw [blind_isOf .function p t u hins, h.blind_declaredName p t u hins, hins.node_eq]

/-- Of the branch itself, the outline lists nothing and the log reports nothing. -/
theorem own_eq_none (source : Bytes) :
    new.ownFunction? table source = none ∧ new.ownClass? table source = none ∧
      new.ownImport? table source = none ∧ new.droppedFunction? table source = none := by
  simp [ownFunction?, ownClass?, ownImport?, droppedFunction?, h.isOf_eq_false]

theorem filterMap_walk_eq_nil {α : Type} {pick : Tree → Option α} (hnone : pick new = none) :
    new.walk.filterMap pick = [] := by
  rw [Tree.filterMap_walk, hnone, h.children]
  rfl

theorem filterMap_walk_eq {α : Type} {pick : Tree → Option α} (hblind : Blind new pick)
    (hnone : pick new = none) {p : Address} {t u : Tree} (hins : Inserted new p t u) :
    u.walk.filterMap pick = t.walk.filterMap pick :=
  hblind.filterMap_walk (h.filterMap_walk_eq_nil hnone) p t u hins

/-! ## The count of branches -/

theorem complexity_eq {p : Address} {t u : Tree} (hins : Inserted new p t u) :
    u.complexity table = t.complexity table + 1 := by
  have hnew : new.preorder.countP (fun n => table.isA n.kind .branch) = 1 := by
    rw [preorder_eq, h.children, List.countP_cons, h.branch]
    rfl
  unfold complexity
  rw [walk_eq_preorder, walk_eq_preorder]
  induction hins with
  | here n before after =>
    simp only [countP_preorder_mk, preorderAll_append, preorderAll, List.countP_append, hnew]
    omega
  | inside n before after _ ih =>
    simp only [countP_preorder_mk, preorderAll_append, preorderAll, List.countP_append]
    omega

theorem functionInfo_eq {p : Address} {t u : Tree} (hins : Inserted new p t u) :
    u.functionInfo table source = (t.functionInfo table source).addBranch := by
  unfold functionInfo FunctionInfo.addBranch
  rw [h.blind_declaredName p t u hins, h.blind_signature p t u hins, h.blind_params p t u hins,
    h.blind_declaredType table.returnTypeField "void".toList p t u hins,
    h.blind_visibility p t u hins, h.complexity_eq hins, hins.node_eq]
  rfl

theorem ownFunction?_eq (p : Address) (t u : Tree) (hins : Inserted new p t u) :
    u.ownFunction? table source = (t.ownFunction? table source).map FunctionInfo.addBranch := by
  unfold ownFunction?
  rw [blind_isOf .function p t u hins, h.blind_declaredName p t u hins, h.functionInfo_eq hins]
  split <;> rfl

end IsBareBranch

/-! ## The outline -/

/-- The functions at the beginnings of the address get one branch more, the others none. -/
theorem IsBareBranch.filterMap_ownFunction? (h : IsBareBranch table new) (source : Bytes)
    {p : Address} {t u : Tree} (hins : Inserted new p t u) :
    u.walk.filterMap (ownFunction? table source)
      = (t.functionsAt table source).map
          (fun e => if e.1 <+: p then e.2.addBranch else e.2) := by
  rw [map_functionsAt]
  exact hins.filterMap_walk h.ownFunction?_eq (h.filterMap_walk_eq_nil (h.own_eq_none source).1)

/-- **One branch more makes the functions around it one more complex, and changes nothing else.**
The branch is put among the children at `p`; the functions around it are those whose addresses `p`
begins with, the one at `p` included. -/
theorem extract_insertAt {table : LanguageTable} (htable : table ∈ LanguageTable.builtIn)
    (source : Bytes) (language fileName : String) {t n : Tree} {p : Address}
    (hn : t.subtree? p = some n) {i : Nat} (hi : i ≤ n.children.length) {branch : Node}
    (hkind : branch.kind ∈ table.branches) (hfields : branch.fields = []) :
    (Outline.extract table source language fileName (t.insertAt p i (mk branch []))).value
        = { (Outline.extract table source language fileName t).value with
            functions := (t.functionsAt table source).map
              (fun e => if e.1 <+: p then e.2.addBranch else e.2) } ∧
      (Outline.extract table source language fileName (t.insertAt p i (mk branch []))).events
        = (Outline.extract table source language fileName t).events ∧
      (t.functionsAt table source).map Prod.snd
        = (Outline.extract table source language fileName t).value.functions ∧
      ∀ q f, (q, f) ∈ t.functionsAt table source ↔ ∃ g, t.subtree? q = some g ∧
        g.IsNamedFunction table source ∧ g.functionInfo table source = f := by
  have h := isBareBranch_of_mem htable hkind hfields
  have hins := inserted_insertAt hn hi (mk branch [])
  obtain ⟨-, hclass, himport, hdrop⟩ := h.own_eq_none source
  have hfunctions := h.filterMap_ownFunction? source hins
  have hclasses := h.filterMap_walk_eq h.blind_ownClass? hclass hins
  have himports := h.filterMap_walk_eq blind_ownImport? himport hins
  have hdropped := h.filterMap_walk_eq h.blind_droppedFunction? hdrop hins
  refine ⟨?_, ?_, map_snd_functionsAt, fun q f => mem_functionsAt_iff⟩
  · change Outline.ofTree _ _ _ _ _ = _
    simp only [Outline.ofTree, hfunctions, hclasses, himports]
    rfl
  · exact congrArg (· ++ []) hdropped

/-- Two functions one in the other and one after them, over the source `f g a h`; the inner one has
a parameter. -/
def nestedFunctions : Tree :=
  .mk ⟨"module", 0, 7, 0, 0, [], 0⟩
    [.mk ⟨"function_definition", 0, 5, 0, 0, [], 1⟩
      [.mk ⟨"identifier", 0, 1, 0, 0, ["name"], 2⟩ [],
        .mk ⟨"block", 2, 5, 0, 0, ["body"], 3⟩
          [.mk ⟨"function_definition", 2, 5, 0, 0, [], 4⟩
            [.mk ⟨"identifier", 2, 3, 0, 0, ["name"], 5⟩ [],
              .mk ⟨"parameters", 4, 5, 0, 0, ["parameters"], 6⟩
                [.mk ⟨"identifier", 4, 5, 0, 0, [], 7⟩ []]]]],
      .mk ⟨"function_definition", 6, 7, 0, 0, [], 8⟩
        [.mk ⟨"identifier", 6, 7, 0, 0, ["name"], 9⟩ []]]

/-- A branch before the parameter counts for the inner function and the outer one. -/
theorem extract_nestedFunctions :
    LanguageTable.python ∈ LanguageTable.builtIn ∧
      "conditional_expression" ∈ LanguageTable.python.branches ∧
      (Outline.extract LanguageTable.python (Utf8.encode "f g a h".toList) "python" "nested.py"
          (nestedFunctions.insertAt [0, 1, 0, 1] 0
            (.mk ⟨"conditional_expression", 4, 4, 0, 0, [], 10⟩ []))).value.functions.map
          (fun f => (f.name, f.params.map Param.name, f.complexity))
        = [("f", [], 2), ("g", ["a"], 2), ("h", [], 1)] := by
  refine ⟨by decide +kernel, by decide +kernel, ?_⟩
  rw [(extract_insertAt (by decide +kernel) _ _ _ rfl (by decide) (by decide +kernel) rfl).1]
  decide +kernel

end Tree

end SourceIndex
