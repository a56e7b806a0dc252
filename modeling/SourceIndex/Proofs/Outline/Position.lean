import Mathlib.Data.List.Basic
import SourceIndex.Proofs.Outline.Fold
import SourceIndex.Proofs.SyntaxTree.Address
import SourceIndex.Proofs.SyntaxTree.Shift
import SourceIndex.Proofs.Text.Utf8

/-!
# Outlines do not depend on where the source stands

The text of a node is cut out at its offsets, and the search for a signature's end begins at the
distance between two offsets.  So if every node of a moved tree cuts the same bytes out of another
source as it did before (`Carried`), all that is read of the tree is the same, the numbers of lines
apart.

Bytes in front of a source carry it that way, and so do bytes behind it if no node reaches beyond
its end.  Hence **an outline moves with its source and does not see what stands around it**
(`extract_shift`), whatever the offsets: also where they lie beyond the end of the source, or in the
wrong order.
-/

namespace SourceIndex

/-- The same function, some rows further down. -/
def FunctionInfo.shiftLines (rows : Nat) (f : FunctionInfo) : FunctionInfo :=
  { f with lineStart := f.lineStart + rows, lineEnd := f.lineEnd + rows }

theorem FunctionInfo.shiftLines_zero : FunctionInfo.shiftLines 0 = id := by
  funext f
  simp [shiftLines]

namespace Tree

/-- Every node of the tree, moved by `bytes`, cuts out of `moved` what it cuts out of `source`. -/
def Carried (bytes : Nat) (source moved : Bytes) (t : Tree) : Prop :=
  ∀ s ∈ t.walk, moved.slice (s.node.startByte + bytes) (s.node.endByte + bytes)
    = s.node.bytes source

theorem carried_append_left (before source : Bytes) (t : Tree) :
    Carried before.length source (before ++ source) t :=
  fun _ _ => Bytes.slice_append_left before source _ _

theorem carried_append_right {source : Bytes} {t : Tree}
    (h : ∀ s ∈ t.walk, s.node.endByte ≤ source.length) (after : Bytes) :
    Carried 0 source (source ++ after) t :=
  fun s hs => Bytes.slice_append_right after _ (h s hs)

variable {table : LanguageTable} {bytes rows : Nat} {source moved : Bytes} {t : Tree}

/-! ## What does not depend on the source -/

theorem isOf_shift (category : Category) (t : Tree) :
    (t.shift bytes rows).isOf table category = t.isOf table category := by
  rw [isOf, isOf, kind_shift]

theorem complexity_shift (t : Tree) :
    (t.shift bytes rows).complexity table = t.complexity table := by
  rw [complexity, complexity, walk_shift, List.countP_map]
  refine congrArg (· + 1) (List.countP_congr ?_)
  intro s _
  rw [Function.comp_apply, kind_shift]

/-- The search for the end of a signature begins at a distance, which a move does not change. -/
theorem searchOffset_shift (t : Tree) : (t.shift bytes rows).searchOffset = t.searchOffset := by
  have hanchor : ((t.shift bytes rows).child? "parameters" <|> (t.shift bytes rows).child? "name")
      = (t.child? "parameters" <|> t.child? "name").map (shift bytes rows) := by
    rw [child?_shift, child?_shift]
    cases t.child? "parameters" <;> rfl
  unfold searchOffset
  rw [hanchor, node_shift]
  cases t.child? "parameters" <|> t.child? "name" with
  | none => rfl
  | some anchor =>
    -- Both ends of the distance move by `bytes`.
    simp only [Option.map_some, node_shift, Node.shift]
    omega

namespace Carried

variable (h : Carried bytes source moved t)

include h

/-! ## What is read of a declaration -/

theorem of_mem_walk {s : Tree} (hs : s ∈ t.walk) : Carried bytes source moved s :=
  fun r hr => h r (mem_walk_trans hr hs)

theorem of_mem_children {c : Tree} (hc : c ∈ t.children) : Carried bytes source moved c :=
  h.of_mem_walk (mem_walk_of_mem_children hc)

theorem of_child? {field : String} {c : Tree} (hc : t.child? field = some c) :
    Carried bytes source moved c :=
  h.of_mem_children (List.mem_of_find?_eq_some hc)

theorem bytes_eq : (t.shift bytes rows).node.bytes moved = t.node.bytes source := by
  rw [node_shift]
  exact h t (mem_walk_iff.mpr ⟨[], rfl⟩)

theorem text_eq : (t.shift bytes rows).text moved = t.text source := by
  rw [text, text, Node.text, Node.text, h.bytes_eq]

/-- What is found among the children is found among the moved ones. -/
theorem findSome?_children_eq {α : Type} {pick pick' : Tree → Option α}
    (hpick : ∀ c, Carried bytes source moved c → pick' (c.shift bytes rows) = pick c) :
    (t.shift bytes rows).children.findSome? pick' = t.children.findSome? pick := by
  have hall : t.children.filterMap (pick' ∘ shift bytes rows) = t.children.filterMap pick :=
    List.filterMap_congr (fun c hc => hpick c (h.of_mem_children hc))
  rw [children_shift, List.findSome?_map, ← List.head?_filterMap, hall, List.head?_filterMap]

theorem fieldText_eq (field : String) :
    (t.shift bytes rows).fieldText field moved = t.fieldText field source := by
  unfold fieldText
  rw [child?_shift]
  cases hc : t.child? field with
  | none => rfl
  | some c => exact (h.of_child? hc).text_eq

theorem signature_eq :
    (t.shift bytes rows).signature table moved = t.signature table source := by
  unfold signature
  rw [h.bytes_eq, searchOffset_shift]

theorem typeText_eq : (t.shift bytes rows).typeText table moved = t.typeText table source := by
  unfold typeText
  rw [kind_shift, h.text_eq]

theorem declaredType_eq (field : String) (default : List Char) :
    (t.shift bytes rows).declaredType table moved field default
      = t.declaredType table source field default := by
  unfold declaredType
  rw [child?_shift]
  cases hc : t.child? field with
  | none => rfl
  | some c => simp only [Option.map_some, (h.of_child? hc).typeText_eq]

theorem nameFromChild?_eq :
    nameFromChild? table moved (t.shift bytes rows) = nameFromChild? table source t := by
  unfold nameFromChild?
  rw [kind_shift, h.text_eq, h.fieldText_eq]

theorem paramName_eq :
    (t.shift bytes rows).paramName table moved = t.paramName table source := by
  have hfields : nameFields.findSome? (t.shift bytes rows).child?
      = (nameFields.findSome? t.child?).map (shift bytes rows) := by
    rw [List.map_findSome?]
    exact congrArg nameFields.findSome? (funext (child?_shift t))
  have hchildren : (t.shift bytes rows).children.findSome? (nameFromChild? table moved)
      = t.children.findSome? (nameFromChild? table source) :=
    h.findSome?_children_eq (fun c hc => hc.nameFromChild?_eq)
  unfold paramName
  rw [kind_shift, h.text_eq, hfields, hchildren]
  cases hc : nameFields.findSome? t.child? with
  | none => rfl
  | some c =>
    obtain ⟨field, -, hfield⟩ := List.exists_of_findSome?_eq_some hc
    simp only [Option.map_some, (h.of_child? hfield).text_eq]

theorem param_eq : param table moved (t.shift bytes rows) = param table source t := by
  rw [param, param, h.declaredType_eq, h.paramName_eq]

theorem params_eq : (t.shift bytes rows).params table moved = t.params table source := by
  unfold params
  rw [child?_shift]
  cases hc : t.child? "parameters" with
  | none => rfl
  | some list =>
    have hlist := h.of_child? hc
    have hkinds : (fun c : Tree => table.isA c.kind .parameter) ∘ shift bytes rows
        = fun c => table.isA c.kind .parameter := by
      funext c
      rw [Function.comp_apply, kind_shift]
    simp only [Option.map_some, children_shift, List.filter_map, hkinds, List.map_map]
    refine List.map_congr_left ?_
    intro c hmem
    exact (hlist.of_mem_children (List.mem_filter.mp hmem).1).param_eq

theorem visibility_eq :
    (t.shift bytes rows).visibility table moved = t.visibility table source := by
  unfold visibility
  refine congrArg (fun found => Option.getD found "package") (h.findSome?_children_eq ?_)
  intro c hc
  rw [kind_shift, hc.text_eq]

/-! ## What a declaration gives to the outline -/

theorem functionInfo_eq :
    (t.shift bytes rows).functionInfo table moved
      = (t.functionInfo table source).shiftLines rows := by
  unfold functionInfo FunctionInfo.shiftLines declaredName
  rw [h.fieldText_eq, h.signature_eq, h.params_eq, h.declaredType_eq, h.visibility_eq,
    complexity_shift, node_shift]
  simp only [Node.shift, FunctionInfo.mk.injEq, true_and, and_true]
  omega

theorem ownFunction?_eq :
    (t.shift bytes rows).ownFunction? table moved
      = (t.ownFunction? table source).map (FunctionInfo.shiftLines rows) := by
  unfold ownFunction? declaredName
  rw [isOf_shift, h.fieldText_eq, h.functionInfo_eq]
  split <;> rfl

theorem ownClass?_eq :
    (t.shift bytes rows).ownClass? table moved = t.ownClass? table source := by
  unfold ownClass? declaredName
  rw [isOf_shift, h.fieldText_eq]

theorem ownImport?_eq :
    (t.shift bytes rows).ownImport? table moved = t.ownImport? table source := by
  unfold ownImport?
  rw [isOf_shift, h.text_eq]

theorem droppedFunction?_eq :
    (t.shift bytes 0).droppedFunction? table moved = t.droppedFunction? table source := by
  unfold droppedFunction? declaredName
  rw [isOf_shift, h.fieldText_eq, kind_shift, node_shift]
  rfl

/-! ## The outline -/

/-- What is picked from a moved tree is picked from the nodes one by one. -/
theorem filterMap_walk_eq {α : Type} {pick pick' : Tree → Option α}
    (hpick : ∀ s, Carried bytes source moved s → pick' (s.shift bytes rows) = pick s) :
    (t.shift bytes rows).walk.filterMap pick' = t.walk.filterMap pick := by
  rw [walk_shift, List.filterMap_map]
  exact List.filterMap_congr (fun s hs => hpick s (h.of_mem_walk hs))

/-- The outline of a moved tree is that of the tree, its lines moved. -/
theorem value_extract_eq (table : LanguageTable) (rows : Nat) (language fileName : String) :
    (Outline.extract table moved language fileName (t.shift bytes rows)).value
      = { (Outline.extract table source language fileName t).value with
          functions := (Outline.extract table source language fileName t).value.functions.map
            (FunctionInfo.shiftLines rows) } := by
  have hfunctions : (t.shift bytes rows).walk.filterMap (ownFunction? table moved)
      = (t.walk.filterMap (ownFunction? table source)).map (FunctionInfo.shiftLines rows) := by
    rw [List.map_filterMap]
    exact h.filterMap_walk_eq (fun s hs => hs.ownFunction?_eq)
  have hclasses : (t.shift bytes rows).walk.filterMap (ownClass? table moved)
      = t.walk.filterMap (ownClass? table source) :=
    h.filterMap_walk_eq (fun s hs => hs.ownClass?_eq)
  have himports : (t.shift bytes rows).walk.filterMap (ownImport? table moved)
      = t.walk.filterMap (ownImport? table source) :=
    h.filterMap_walk_eq (fun s hs => hs.ownImport?_eq)
  change Outline.ofTree _ _ _ _ _ = _
  simp only [Outline.ofTree, hfunctions, hclasses, himports]
  rfl

theorem events_extract_eq (table : LanguageTable) (language fileName : String) :
    (Outline.extract table moved language fileName (t.shift bytes 0)).events
      = (Outline.extract table source language fileName t).events := by
  have hdropped : (t.shift bytes 0).walk.filterMap (droppedFunction? table moved)
      = t.walk.filterMap (droppedFunction? table source) :=
    h.filterMap_walk_eq (fun s hs => hs.droppedFunction?_eq)
  exact congrArg (· ++ []) hdropped

end Carried

/-- **An outline moves with its source, and does not see what stands around it.**  Bytes in front of
the source move the lines of the functions and change nothing else; bytes behind it change nothing
at all, if no node reaches beyond its end. -/
theorem extract_shift (table : LanguageTable) (source : Bytes) (language fileName : String)
    (t : Tree) :
    (∀ (before : Bytes) (rows : Nat),
      (Outline.extract table (before ++ source) language fileName
          (t.shift before.length rows)).value
        = { (Outline.extract table source language fileName t).value with
            functions := (Outline.extract table source language fileName t).value.functions.map
              (FunctionInfo.shiftLines rows) }) ∧
      ((∀ s ∈ t.walk, s.node.endByte ≤ source.length) → ∀ after : Bytes,
        Outline.extract table (source ++ after) language fileName t
          = Outline.extract table source language fileName t) := by
  constructor
  · intro before rows
    exact (carried_append_left before source t).value_extract_eq table rows language fileName
  · intro hends after
    have hcarried := carried_append_right hends after
    have hvalue := hcarried.value_extract_eq table 0 language fileName
    have hevents := hcarried.events_extract_eq table language fileName
    rw [shift_zero] at hvalue hevents
    rw [FunctionInfo.shiftLines_zero, List.map_id] at hvalue
    exact congrArg₂ Traced.mk hvalue hevents

/-- A function over the source `def f(): pass`, with a node that ends before it begins. -/
def crossedOffsets : Tree :=
  .mk ⟨"module", 0, 13, 0, 0, [], 0⟩
    [.mk ⟨"function_definition", 0, 13, 0, 0, [], 1⟩
      [.mk ⟨"identifier", 4, 5, 0, 0, ["name"], 2⟩ [],
        .mk ⟨"parameters", 5, 7, 0, 0, ["parameters"], 3⟩
          [.mk ⟨"identifier", 9, 2, 0, 0, [], 4⟩ []],
        .mk ⟨"block", 9, 13, 0, 0, ["body"], 5⟩ []]]

/-- A comment in front of the function moves it down; a line behind it is not seen. -/
theorem extract_crossedOffsets :
    (∀ s ∈ crossedOffsets.walk,
        s.node.endByte ≤ (Utf8.encode "def f(): pass".toList).length) ∧
      (Outline.extract LanguageTable.python
          (Utf8.encode "# ü\n".toList ++ Utf8.encode "def f(): pass".toList) "python" "f.py"
          (crossedOffsets.shift (Utf8.encode "# ü\n".toList).length 1)).value.functions.map
          (fun f => (f.name, f.signature, f.lineStart, f.lineEnd))
        = [("f", "def f()", 2, 2)] ∧
      Outline.extract LanguageTable.python
          (Utf8.encode "def f(): pass".toList ++ Utf8.encode "\nimport os".toList) "python" "f.py"
          crossedOffsets
        = Outline.extract LanguageTable.python (Utf8.encode "def f(): pass".toList) "python" "f.py"
            crossedOffsets := by
  have hends : ∀ s ∈ crossedOffsets.walk,
      s.node.endByte ≤ (Utf8.encode "def f(): pass".toList).length := by decide +kernel
  refine ⟨hends, ?_, (extract_shift _ _ _ _ _).2 hends _⟩
  rw [(extract_shift _ _ _ _ _).1]
  decide +kernel

end Tree

end SourceIndex
