import SourceIndex.Proofs.Outline.Places

/-!
# The function around a line

The function around a line is the first in the outline whose lines have it.  If the rows of every
node lie within those of its parent, **it is an outermost one** (`enclosing?_outermost`): the
functions above it would have the line too, and the outline has them before it.
-/

namespace SourceIndex

namespace Tree

/-- Whether a row belongs to the topmost node. -/
def OnRow (t : Tree) (row : Nat) : Prop :=
  t.node.startRow ≤ row ∧ row ≤ t.node.endRow

/-- Whether a line, counted from one, belongs to the topmost node. -/
def OnLine (t : Tree) (line : Int) : Prop :=
  (t.node.startRow : Int) + 1 ≤ line ∧ line ≤ (t.node.endRow : Int) + 1

/-- The rows of every node are among those of its parent. -/
def RowsNested (t : Tree) : Prop :=
  ∀ p s c, t.subtree? p = some s → c ∈ s.children → ∀ row, c.OnRow row → s.OnRow row

variable {table : LanguageTable} {source : Bytes} {language fileName : String} {t : Tree}

theorem onLine_iff {line : Int} : t.OnLine line ↔ ∃ row : Nat, line = row + 1 ∧ t.OnRow row := by
  constructor
  · rintro ⟨hstart, hend⟩
    refine ⟨(line - 1).toNat, by omega, ?_, ?_⟩ <;> omega
  · rintro ⟨row, rfl, hstart, hend⟩
    constructor <;> omega

theorem containsLine_functionInfo {line : Int} :
    (t.functionInfo table source).containsLine line = true ↔ t.OnLine line := by
  rw [FunctionInfo.containsLine, Bool.and_eq_true, decide_eq_true_eq, decide_eq_true_eq]
  rfl

/-! ## Nested rows -/

/-- What lies within a tree has no row that the tree has not. -/
theorem RowsNested.onRow (h : t.RowsNested) {p q : Address} {a g : Tree}
    (ha : t.subtree? p = some a) (hg : a.subtree? q = some g) {row : Nat} (hrow : g.OnRow row) :
    a.OnRow row := by
  induction q generalizing p a with
  | nil =>
    obtain rfl : a = g := Option.some.inj hg
    exact hrow
  | cons i q ih =>
    obtain ⟨c, hc, hg⟩ := subtree?_cons_eq_some.mp hg
    have hbelow : t.subtree? (p ++ [i]) = some c := by
      rw [subtree?_append, ha, Option.bind_some, subtree?, hc]
      rfl
    exact h p a c ha (List.mem_of_getElem? hc) row (ih hbelow hg)

/-- Whether rows are nested can be read off the list of all places. -/
theorem rowsNested_iff (t : Tree) :
    t.RowsNested ↔ ∀ e ∈ t.located, ∀ c ∈ e.2.children, c.node.endRow < c.node.startRow ∨
      e.2.node.startRow ≤ c.node.startRow ∧ c.node.endRow ≤ e.2.node.endRow := by
  constructor
  · rintro h ⟨p, s⟩ he c hc
    by_cases hempty : c.node.endRow < c.node.startRow
    · exact Or.inl hempty
    · have hs := (mem_located_iff t p s).mp he
      have hle := Nat.le_of_not_lt hempty
      exact Or.inr ⟨(h p s c hs hc _ ⟨Nat.le_refl _, hle⟩).1,
        (h p s c hs hc _ ⟨hle, Nat.le_refl _⟩).2⟩
  · rintro h p s c hs hc row ⟨hstart, hend⟩
    rcases h (p, s) ((mem_located_iff t p s).mpr hs) c hc with hempty | ⟨hle, hle'⟩
    · omega
    · exact ⟨Nat.le_trans hle hstart, Nat.le_trans hend hle'⟩

instance (t : Tree) : Decidable t.RowsNested :=
  decidable_of_iff _ (rowsNested_iff t).symm

/-! ## The first function with a line -/

/-- The function at `p`, which has a line, stands in no function with a name, and comes before every
other that has the line. -/
structure Outermost (table : LanguageTable) (source : Bytes) (line : Int) (t : Tree) (p : Address)
    (g : Tree) : Prop where
  here : t.subtree? p = some g
  named : g.IsNamedFunction table source
  onLine : g.OnLine line
  above : ∀ q a, q <+: p → q ≠ p → t.subtree? q = some a → ¬a.IsNamedFunction table source
  first : ∀ q s, t.subtree? q = some s → s.IsNamedFunction table source → s.OnLine line →
    q ≠ p → p < q

theorem enclosing?_eq_none_iff {line : Int} :
    (Outline.extract table source language fileName t).value.enclosing? line = none ↔
      ∀ p g, t.subtree? p = some g → g.IsNamedFunction table source → ¬g.OnLine line := by
  rw [Outline.enclosing?, List.find?_eq_none]
  constructor
  · intro h p g hg hnamed hline
    exact h _ (mem_functions_iff.mpr ⟨p, g, hg, hnamed, rfl⟩) (containsLine_functionInfo.mpr hline)
  · intro h f hf hline
    obtain ⟨p, g, hg, hnamed, rfl⟩ := mem_functions_iff.mp hf
    exact h p g hg hnamed (containsLine_functionInfo.mp hline)

theorem any_ownFunction?_iff {line : Int} :
    (t.ownFunction? table source).any (·.containsLine line) = true ↔
      t.IsNamedFunction table source ∧ t.OnLine line := by
  rw [Option.any_eq_true]
  constructor
  · rintro ⟨f, hf, hline⟩
    obtain ⟨hnamed, rfl⟩ := ownFunction?_eq_some.mp hf
    exact ⟨hnamed, containsLine_functionInfo.mp hline⟩
  · rintro ⟨hnamed, hline⟩
    exact ⟨_, ownFunction?_eq_some.mpr ⟨hnamed, rfl⟩, containsLine_functionInfo.mpr hline⟩

/-- What is found stands at the first place of a named function with the line. -/
theorem exists_of_enclosing? {line : Int} {f : FunctionInfo}
    (h : (Outline.extract table source language fileName t).value.enclosing? line = some f) :
    ∃ p g, t.subtree? p = some g ∧ g.IsNamedFunction table source ∧ g.OnLine line ∧
      g.functionInfo table source = f ∧
      ∀ q s, t.subtree? q = some s → s.IsNamedFunction table source → s.OnLine line →
        q ≠ p → p < q := by
  rw [Outline.enclosing?, functions_eq_located, List.find?_filterMap, Option.bind_eq_some_iff] at h
  obtain ⟨⟨p, g⟩, hfind, hf⟩ := h
  obtain ⟨hany, before, after, hsplit, hbefore⟩ := List.find?_eq_some_iff_append.mp hfind
  obtain ⟨hnamed, hline⟩ := any_ownFunction?_iff.mp hany
  have hhere : t.subtree? p = some g := by
    rw [← mem_located_iff, hsplit]
    simp
  refine ⟨p, g, hhere, hnamed, hline, (ownFunction?_eq_some.mp hf).2, ?_⟩
  intro q s hs hsnamed hsline hne
  have hmem : (q, s) ∈ t.located := (mem_located_iff t q s).mpr hs
  rw [hsplit, List.mem_append, List.mem_cons] at hmem
  rcases hmem with hin | heq | hin
  · have hnot := hbefore _ hin
    rw [any_ownFunction?_iff.mpr ⟨hsnamed, hsline⟩] at hnot
    cases hnot
  · exact absurd (congrArg Prod.fst heq) hne
  · have hpairwise := pairwise_located t
    rw [hsplit] at hpairwise
    have hcons := (List.pairwise_append.mp hpairwise).2.1
    exact (List.pairwise_cons.mp hcons).1 (q, s) hin

/-- With nested rows, no function with a name stands above the first that has a line. -/
theorem RowsNested.outermost (h : t.RowsNested) {line : Int} {f : FunctionInfo}
    (hf : (Outline.extract table source language fileName t).value.enclosing? line = some f) :
    ∃ p g, Outermost table source line t p g ∧ g.functionInfo table source = f := by
  obtain ⟨p, g, hhere, hnamed, hline, hinfo, hfirst⟩ := exists_of_enclosing? hf
  refine ⟨p, g, ⟨hhere, hnamed, hline, ?_, hfirst⟩, hinfo⟩
  rintro q a ⟨r, rfl⟩ hne ha hanamed
  obtain ⟨row, rfl, hrow⟩ := onLine_iff.mp hline
  have hg : a.subtree? r = some g := by
    rw [subtree?_append, ha] at hhere
    exact hhere
  have haline : a.OnLine (row + 1) := onLine_iff.mpr ⟨row, rfl, h.onRow ha hg hrow⟩
  exact not_append_lt q r (hfirst q a ha hanamed haline hne)

/-- **The function around a line is an outermost one**, if the rows of nodes are nested: there is
none exactly if no function with a name has the line, and else it is the first that has it and
stands in no other.  A function whose lines are in order is not missed on its first and on its last
line. -/
theorem enclosing?_outermost (table : LanguageTable) (source : Bytes) (language fileName : String)
    {t : Tree} (h : t.RowsNested) (line : Int) :
    ((Outline.extract table source language fileName t).value.enclosing? line = none ↔
        ∀ p g, t.subtree? p = some g → g.IsNamedFunction table source → ¬g.OnLine line) ∧
      (∀ f, (Outline.extract table source language fileName t).value.enclosing? line = some f →
        ∃ p g, Outermost table source line t p g ∧ g.functionInfo table source = f) ∧
      ∀ f ∈ (Outline.extract table source language fileName t).value.functions,
        f.lineStart ≤ f.lineEnd →
          (Outline.extract table source language fileName t).value.enclosing? f.lineStart ≠ none ∧
            (Outline.extract table source language fileName t).value.enclosing? f.lineEnd
              ≠ none := by
  refine ⟨enclosing?_eq_none_iff, fun f hf => h.outermost hf, ?_⟩
  intro f hf hle
  obtain ⟨p, g, hg, hnamed, rfl⟩ := mem_functions_iff.mp hf
  constructor
  · intro hnone
    exact enclosing?_eq_none_iff.mp hnone p g hg hnamed ⟨Int.le_refl _, hle⟩
  · intro hnone
    exact enclosing?_eq_none_iff.mp hnone p g hg hnamed ⟨hle, Int.le_refl _⟩

/-- A function without a name over the source `outer inner next`.  Two functions stand in it, which
share a row, and in the first of them a third. -/
def sharedRow : Tree :=
  let function (node name : Node) (below : List Tree) : Tree := mk node (mk name [] :: below)
  mk ⟨"function_expression", 0, 16, 0, 4, [], 0⟩
    [function ⟨"function_declaration", 0, 11, 1, 3, [], 1⟩ ⟨"identifier", 0, 5, 1, 1, ["name"], 2⟩
      [function ⟨"function_declaration", 6, 11, 2, 3, [], 3⟩
        ⟨"identifier", 6, 11, 2, 2, ["name"], 4⟩ []],
    function ⟨"function_declaration", 12, 16, 3, 4, [], 5⟩ ⟨"identifier", 12, 16, 3, 3, ["name"], 6⟩
      []]

/-- On the row that all three share, the first of the two is found. -/
theorem enclosing?_sharedRow :
    sharedRow.RowsNested ∧
      ∃ p g, Outermost LanguageTable.javascript (Utf8.encode "outer inner next".toList) 4 sharedRow
        p g ∧ (g.functionInfo LanguageTable.javascript
          (Utf8.encode "outer inner next".toList)).name = "outer" := by
  have hnested : sharedRow.RowsNested := by decide +kernel
  have hname : ((Outline.extract LanguageTable.javascript (Utf8.encode "outer inner next".toList)
      "javascript" "shared.js" sharedRow).value.enclosing? 4).map FunctionInfo.name
        = some "outer" := by decide +kernel
  obtain ⟨f, hf, hname⟩ := Option.map_eq_some_iff.mp hname
  obtain ⟨p, g, hg, rfl⟩ := (enclosing?_outermost _ _ _ _ hnested 4).2.1 f hf
  exact ⟨hnested, p, g, hg, hname⟩

end Tree

end SourceIndex
