import SourceIndex.Proofs.Outline.Fold
import SourceIndex.Proofs.SyntaxTree.Address

/-!
# Where the functions of an outline stand

An outline lists its functions without saying where they were declared.  `functionsAt` lists them in
the same order with the addresses of their declarations (`map_snd_functionsAt`), and **it lists the
named functions of the tree, each at its own place** (`mem_functionsAt_iff`).
-/

namespace SourceIndex.Tree

variable {table : LanguageTable} {source : Bytes} {t : Tree}

/-- The functions of an outline, each with the address of its declaration. -/
def functionsAt (table : LanguageTable) (source : Bytes) (t : Tree) :
    List (Address × FunctionInfo) :=
  t.located.filterMap (fun e => (e.2.ownFunction? table source).map (e.1, ·))

theorem mem_functionsAt_iff {q : Address} {f : FunctionInfo} :
    (q, f) ∈ t.functionsAt table source ↔ ∃ g, t.subtree? q = some g ∧
      g.IsNamedFunction table source ∧ g.functionInfo table source = f := by
  rw [functionsAt, List.mem_filterMap]
  constructor
  · rintro ⟨⟨q', g⟩, hg, hown⟩
    obtain ⟨f', hf, heq⟩ := Option.map_eq_some_iff.mp hown
    obtain ⟨rfl, rfl⟩ := Prod.mk.inj heq
    exact ⟨g, (mem_located_iff t q' g).mp hg, ownFunction?_eq_some.mp hf⟩
  · rintro ⟨g, hg, hf⟩
    exact ⟨(q, g), (mem_located_iff t q g).mpr hg, by rw [ownFunction?_eq_some.mpr hf]; rfl⟩

theorem map_functionsAt {α : Type} (f : Address × FunctionInfo → α) :
    (t.functionsAt table source).map f
      = t.located.filterMap
          (fun e => (e.2.ownFunction? table source).map (fun g => f (e.1, g))) := by
  rw [functionsAt, List.map_filterMap]
  simp only [Option.map_map, Function.comp_def]

variable {language fileName : String}

theorem functions_eq_located :
    (Outline.extract table source language fileName t).value.functions
      = t.located.filterMap (fun e => e.2.ownFunction? table source) := by
  change t.walk.filterMap _ = _
  rw [← map_snd_located, List.filterMap_map]
  rfl

theorem map_snd_functionsAt :
    (t.functionsAt table source).map Prod.snd
      = (Outline.extract table source language fileName t).value.functions := by
  rw [functions_eq_located, map_functionsAt]
  simp only [Option.map_id']

/-- The functions of an outline are those of the named functions within the tree. -/
theorem mem_functions_iff {f : FunctionInfo} :
    f ∈ (Outline.extract table source language fileName t).value.functions ↔
      ∃ p g, t.subtree? p = some g ∧ g.IsNamedFunction table source ∧
        g.functionInfo table source = f := by
  rw [← map_snd_functionsAt, List.mem_map]
  constructor
  · rintro ⟨⟨p, _⟩, hmem, rfl⟩
    exact ⟨p, mem_functionsAt_iff.mp hmem⟩
  · rintro ⟨p, g, hg⟩
    exact ⟨(p, f), mem_functionsAt_iff.mpr ⟨g, hg⟩, rfl⟩

end SourceIndex.Tree
