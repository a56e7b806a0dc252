import Mathlib.Data.List.Forall2
import SourceIndex.Proofs.Outline.Parameters
import SourceIndex.Proofs.Outline.Signature
import SourceIndex.Proofs.Outline.Visibility

/-!
# Well-formed records

The record of a function is put together from pieces that are found in different ways, each with a
default of its own.  Whatever bytes the nodes of a tree cover, and however they cover them, **every
record is well formed** (`extract_wellFormed`): it has a name, its texts are trimmed, types are
never empty, the visibility is one of four, and there is one parameter for each node that is listed
as one, in the order of the nodes.
-/

namespace SourceIndex

open Text (Trimmed trimmed_trim trimmed_trimRight)

/-- What an outline gives for a type: a text without white space around it, and not empty. -/
structure IsType (text : String) : Prop where
  ne_empty : text ≠ ""
  trimmed : Trimmed text.toList

/-- A parameter is what is said of a node, with a proper type. -/
structure Param.WellFormed (table : LanguageTable) (source : Bytes) (q : Tree) (p : Param) :
    Prop where
  eq_param : p = q.param table source
  type : IsType p.type

/-- The record of a function is in order, as that of the declaration `g`. -/
structure FunctionInfo.WellFormed (table : LanguageTable) (source : Bytes) (g : Tree)
    (f : FunctionInfo) : Prop where
  name_ne : f.name ≠ ""
  signature : Trimmed f.signature.toList
  returnType : IsType f.returnType
  visibility : f.visibility ∈ ["public", "private", "protected", "package"]
  complexity : 1 ≤ f.complexity
  lines : g.node.startRow ≤ g.node.endRow → f.lineStart ≤ f.lineEnd
  /-- One parameter stands for each node, in order. -/
  params : List.Forall₂ (Param.WellFormed table source) (g.parameterNodes table) f.params

namespace Tree

variable {table : LanguageTable} {source : Bytes} {t g : Tree}

/-! ## Texts -/

theorem trimmed_dropSemicolon {text : List Char} (h : Trimmed text) :
    Trimmed (dropSemicolon text) := by
  by_cases hsemi : [';'] <:+ text
  · obtain ⟨before, rfl⟩ := hsemi
    rw [dropSemicolon_concat]
    -- The end is trimmed again, and the front is what it was.
    refine trimmed_trimRight ?_
    intro c hc
    refine h.front c ?_
    rw [List.head?_append, hc, Option.some_or]
  · rw [dropSemicolon_of_not hsemi]
    exact h

theorem trimmed_signature (table : LanguageTable) (source : Bytes) (t : Tree) :
    Trimmed (t.signature table source) := by
  simp only [signature]
  split
  · exact trimmed_trim _
  · exact trimmed_dropSemicolon (trimmed_trim _)

theorem trimmed_typeText (table : LanguageTable) (source : Bytes) (t : Tree) :
    Trimmed (typeText table source t) := by
  unfold typeText bareType
  split
  · exact trimmed_trim _
  · exact trimmed_trim _

/-- A declared type is a proper one, if the default is. -/
theorem isType_declaredType {default : String} (h : IsType default) (field : String) :
    IsType (String.ofList (t.declaredType table source field default.toList)) := by
  unfold declaredType
  split
  · rw [String.ofList_toList]
    exact h
  · next c _ =>
    have htrimmed := trimmed_typeText table source c
    split
    · rw [String.ofList_toList]
      exact h
    · next text hne =>
      refine ⟨fun hempty => hne (String.ofList_eq_empty_iff.mp hempty), ?_⟩
      rw [String.toList_ofList]
      exact htrimmed

theorem isType_void : IsType "void" :=
  ⟨by decide, ⟨by rintro c ⟨⟩; decide, by rintro c ⟨⟩; decide⟩⟩

theorem isType_unknown : IsType "unknown" :=
  ⟨by decide, ⟨by rintro c ⟨⟩; decide, by rintro c ⟨⟩; decide⟩⟩

theorem wellFormed_param (table : LanguageTable) (source : Bytes) (q : Tree) :
    Param.WellFormed table source q (q.param table source) :=
  ⟨rfl, isType_declaredType isType_unknown "type"⟩

/-! ## Visibility -/

theorem visibility_mem (table : LanguageTable) (source : Bytes) (t : Tree) :
    t.visibility table source ∈ ["public", "private", "protected", "package"] := by
  unfold visibility
  cases h : t.children.findSome? _ with
  | none => decide
  | some keyword =>
    obtain ⟨c, -, hc⟩ := List.exists_of_findSome?_eq_some h
    split at hc
    · obtain ⟨position, hat, -⟩ := firstKeyword?_eq_some_iff.mp hc
      exact List.mem_append_left ["package"] hat.isKeyword
    · cases hc

/-! ## Records -/

theorem IsNamedFunction.wellFormed (h : g.IsNamedFunction table source) :
    FunctionInfo.WellFormed table source g (g.functionInfo table source) where
  name_ne := fun hempty => h.2 (String.ofList_eq_empty_iff.mp hempty)
  signature := by
    rw [functionInfo, String.toList_ofList]
    exact trimmed_signature table source g
  returnType := isType_declaredType isType_void table.returnTypeField
  visibility := visibility_mem table source g
  complexity := by
    show (1 : Int) ≤ (g.complexity table : Nat)
    rw [Tree.complexity]
    omega
  lines := by
    intro hrows
    show (g.node.startRow : Int) + 1 ≤ g.node.endRow + 1
    omega
  params := by
    rw [functionInfo, params_eq_map, List.forall₂_map_right_iff, List.forall₂_same]
    intro q _
    exact wellFormed_param table source q

instance (table : LanguageTable) (source : Bytes) (t : Tree) :
    Decidable (t.IsNamedFunction table source) :=
  inferInstanceAs (Decidable (_ ∧ _))

/-- The records of declarations stand for those among them that have a name. -/
theorem forall₂_ownFunction? (table : LanguageTable) (source : Bytes) (declarations : List Tree) :
    List.Forall₂ (FunctionInfo.WellFormed table source)
      (declarations.filter (fun g => g.IsNamedFunction table source))
      (declarations.filterMap (ownFunction? table source)) := by
  induction declarations with
  | nil => exact .nil
  | cons g rest ih =>
    by_cases h : g.IsNamedFunction table source
    · rw [List.filter_cons_of_pos (by simpa using h),
        List.filterMap_cons_some (ownFunction?_eq_some.mpr ⟨h, rfl⟩)]
      exact .cons h.wellFormed ih
    · have hnone : g.ownFunction? table source = none := by
        refine Option.eq_none_iff_forall_ne_some.mpr ?_
        intro f hf
        exact h (ownFunction?_eq_some.mp hf).1
      rw [List.filter_cons_of_neg (by simpa using h), List.filterMap_cons_none hnone]
      exact ih

theorem ownClass?_ne_empty : t.ownClass? table source ≠ some "" := by
  unfold ownClass?
  split
  · next h =>
    intro hempty
    have hname := String.ofList_eq_empty_iff.mp (Option.some.inj hempty)
    simp [hname] at h
  · exact nofun

/-- **Every record of an outline is well formed**: the functions with a name have one each, in
pre-order, and each is in order.  No class has an empty name. -/
theorem extract_wellFormed (table : LanguageTable) (source : Bytes) (language fileName : String)
    (t : Tree) :
    List.Forall₂ (FunctionInfo.WellFormed table source)
        (t.walk.filter (fun g => g.IsNamedFunction table source))
        (Outline.extract table source language fileName t).value.functions ∧
      "" ∉ (Outline.extract table source language fileName t).value.classes := by
  refine ⟨forall₂_ownFunction? table source t.walk, ?_⟩
  intro hmem
  obtain ⟨c, -, hc⟩ := List.mem_filterMap.mp hmem
  exact ownClass?_ne_empty hc

end Tree

end SourceIndex
