import Mathlib.Algebra.Ring.Int.Defs
import Mathlib.Data.List.Nodup
import SourceIndex.Proofs.Outline.Places

/-!
# Functions within a function

A function counts all branches within it, also those of the functions that stand in it.  Each branch
has one address, and the branches of a nested function are those whose addresses begin with that of
the function (`complexity_at`).  If none of several functions stands in another, then no branch is
counted by two of them (`sum_countP_of_apart`).

So **a function counts what such functions within it count together, and the branches that stand in
none of them** (`complexity_of_nested`).  Of the kinds of the nodes nothing is asked: a function may
be listed as a branch too.
-/

namespace SourceIndex.Tree

variable {t s : Tree} {p : Address} {nested : List (Address × Tree)}

/-- Trees within a tree, each with its address, of which none stands in another. -/
structure Apart (t : Tree) (nested : List (Address × Tree)) : Prop where
  within : ∀ g ∈ nested, t.subtree? g.1 = some g.2
  apart : nested.Pairwise (fun g h => ¬g.1 <+: h.1 ∧ ¬h.1 <+: g.1)

/-- Whether a place lies in one of several trees within. -/
def liesIn (nested : List (Address × Tree)) (q : Address) : Bool :=
  nested.any (fun g => decide (g.1 <+: q))

/-! ## The branches of a tree within -/

theorem nodup_located (t : Tree) : t.located.Nodup := by
  refine (pairwise_located t).imp ?_
  rintro a b hlt rfl
  exact List.lt_irrefl a.1 hlt

/-- The places within the tree at an address are those whose addresses begin with it. -/
theorem located_below_perm (h : t.subtree? p = some s) :
    (t.located.filter (fun e => decide (p <+: e.1))).Perm
      (s.located.map (fun e => (p ++ e.1, e.2))) := by
  refine (List.perm_ext_iff_of_nodup (t.nodup_located.filter _) ?_).mpr ?_
  · refine List.Nodup.map ?_ s.nodup_located
    intro a b he
    obtain ⟨hq, hr⟩ := Prod.mk.inj he
    exact Prod.ext (List.append_cancel_left hq) hr
  · rintro ⟨q, r⟩
    have hbelow (rest : Address) : (p ++ rest, r) ∈ t.located ↔ (rest, r) ∈ s.located := by
      rw [mem_located_iff, mem_located_iff, subtree?_append, h]
      rfl
    rw [List.mem_filter, List.mem_map, decide_eq_true_iff]
    constructor
    · rintro ⟨hmem, rest, rfl⟩
      exact ⟨(rest, r), (hbelow rest).mp hmem, rfl⟩
    · rintro ⟨⟨rest, r'⟩, hmem, he⟩
      obtain ⟨rfl, rfl⟩ := Prod.mk.inj he
      exact ⟨(hbelow rest).mpr hmem, List.prefix_append p rest⟩

/-- A tree within another counts the branches at the addresses that begin with its own. -/
theorem complexity_at (table : LanguageTable) (h : t.subtree? p = some s) :
    (s.complexity table : Int) - 1
      = t.located.countP (fun e => decide (p <+: e.1) && table.isA e.2.kind .branch) := by
  have hown : s.complexity table = s.located.countP (fun e => table.isA e.2.kind .branch) + 1 := by
    rw [complexity, ← map_snd_located, List.countP_map]
    rfl
  have hbelow : t.located.countP (fun e => decide (p <+: e.1) && table.isA e.2.kind .branch)
      = s.located.countP (fun e => table.isA e.2.kind .branch) := by
    have hperm := (located_below_perm h).countP_eq (fun e => table.isA e.2.kind .branch)
    rw [List.countP_filter, List.countP_map] at hperm
    simp only [Bool.and_comm (decide _)]
    exact hperm
  rw [hown, hbelow]
  omega

/-! ## Counting without counting twice -/

theorem countP_or_of_disjoint {α : Type} {P Q : α → Bool} {l : List α}
    (h : ∀ a ∈ l, P a = true → Q a = false) :
    l.countP (fun a => P a || Q a) = l.countP P + l.countP Q := by
  induction l with
  | nil => rfl
  | cons a rest ih =>
    have hrest := ih (fun b hb => h b (List.mem_cons_of_mem a hb))
    have ha := h a List.mem_cons_self
    simp only [List.countP_cons, hrest]
    cases hP : P a with
    | false =>
      simp only [Bool.false_or, Bool.false_eq_true, if_false]
      omega
    | true =>
      simp only [ha hP, Bool.or_false, Bool.false_eq_true, if_false, if_true]
      omega

/-- Where no two addresses have a common continuation, what begins with one of them is counted once.
-/
theorem sum_countP_of_apart (places : List (Address × Tree)) (counts : Address × Tree → Bool)
    (h : nested.Pairwise (fun g h => ¬g.1 <+: h.1 ∧ ¬h.1 <+: g.1)) :
    (nested.map (fun g =>
        (places.countP (fun e => decide (g.1 <+: e.1) && counts e) : Int))).sum
      = places.countP (fun e => liesIn nested e.1 && counts e) := by
  induction nested with
  | nil => simp [liesIn]
  | cons g rest ih =>
    obtain ⟨hg, hrest⟩ := List.pairwise_cons.mp h
    have hdisjoint : ∀ e ∈ places, (decide (g.1 <+: e.1) && counts e) = true →
        (liesIn rest e.1 && counts e) = false := by
      intro e _ he
      have hge := of_decide_eq_true ((Bool.and_eq_true _ _).mp he).1
      have hnone : liesIn rest e.1 = false := by
        refine List.any_eq_false.mpr ?_
        intro g' hg' he'
        -- Of two beginnings of one address, one begins the other.
        rcases List.prefix_or_prefix_of_prefix hge (of_decide_eq_true he') with hp | hp
        · exact (hg g' hg').1 hp
        · exact (hg g' hg').2 hp
      rw [hnone, Bool.false_and]
    rw [List.map_cons, List.sum_cons, ih hrest, ← Int.natCast_add,
      ← countP_or_of_disjoint hdisjoint]
    simp only [liesIn, List.any_cons, Bool.and_or_distrib_right]

/-! ## A function and the functions within it -/

/-- The branches of a tree are those of trees within it that stand apart, and those outside. -/
theorem Apart.complexity_eq (h : Apart t nested) (table : LanguageTable) :
    (t.complexity table : Int) - 1
      = (nested.map (fun g => (g.2.complexity table : Int) - 1)).sum
        + t.located.countP (fun e => table.isA e.2.kind .branch && !liesIn nested e.1) := by
  have hnested : nested.map (fun g => (g.2.complexity table : Int) - 1)
      = nested.map (fun g => (t.located.countP
          (fun e => decide (g.1 <+: e.1) && table.isA e.2.kind .branch) : Int)) := by
    refine List.map_congr_left ?_
    intro g hg
    exact complexity_at table (h.within g hg)
  have hall := complexity_at table t.subtree?_nil
  simp only [List.nil_prefix, decide_true, Bool.true_and] at hall
  have hsplit := t.located.countP_eq_countP_filter_add (fun e => table.isA e.2.kind .branch)
    (fun e => liesIn nested e.1)
  rw [List.countP_filter, List.countP_filter] at hsplit
  rw [hall, hnested, sum_countP_of_apart _ _ h.apart, hsplit, Int.natCast_add]
  simp only [Bool.and_comm (table.isA _ _)]

theorem apart_singleton (h : t.subtree? p = some s) : Apart t [(p, s)] where
  within := by
    intro g hg
    rw [List.mem_singleton.mp hg]
    exact h
  apart := List.pairwise_singleton _ _

/-- A tree within another does not count more. -/
theorem complexity_le_of_subtree? (table : LanguageTable) (h : t.subtree? p = some s) :
    s.complexity table ≤ t.complexity table := by
  have heq := (apart_singleton h).complexity_eq table
  simp only [List.map_singleton, List.sum_singleton] at heq
  omega

/-- No branch of a tree is outside the trees within exactly if each lies in one of them. -/
theorem countP_outside_eq_zero_iff (table : LanguageTable) (t : Tree)
    (nested : List (Address × Tree)) :
    t.located.countP (fun e => table.isA e.2.kind .branch && !liesIn nested e.1) = 0 ↔
      ∀ q b, t.subtree? q = some b → b.kind ∈ table.branches → ∃ g ∈ nested, g.1 <+: q := by
  rw [List.countP_eq_zero]
  simp only [Prod.forall, mem_located_iff]
  refine forall_congr' fun q => forall_congr' fun b => imp_congr_right fun _ => ?_
  simp [LanguageTable.isA, LanguageTable.kinds, liesIn]

/-- **A function counts at least what functions within it count together**, if none of these stands
in another; it counts no more exactly if each branch within it stands in one of them.  So no
function within it counts more than it does, nor does any that an outline lists there. -/
theorem complexity_of_nested (table : LanguageTable) {f : Tree} {nested : List (Address × Tree)}
    (h : Apart f nested) :
    (nested.map (fun g => (g.2.complexity table : Int) - 1)).sum ≤ (f.complexity table : Int) - 1 ∧
      ((nested.map (fun g => (g.2.complexity table : Int) - 1)).sum
          = (f.complexity table : Int) - 1 ↔
        ∀ q b, f.subtree? q = some b → b.kind ∈ table.branches → ∃ g ∈ nested, g.1 <+: q) ∧
      (∀ q g, f.subtree? q = some g → g.complexity table ≤ f.complexity table) ∧
      ∀ source q g, (q, g) ∈ f.functionsAt table source →
        g.complexity ≤ (f.functionInfo table source).complexity := by
  have heq := h.complexity_eq table
  refine ⟨by omega, ?_, fun q g hg => complexity_le_of_subtree? table hg, ?_⟩
  · rw [← countP_outside_eq_zero_iff table f nested]
    omega
  · intro source q g hg
    obtain ⟨s, hs, -, rfl⟩ := mem_functionsAt_iff.mp hg
    exact Int.ofNat_le.mpr (complexity_le_of_subtree? table hs)

/-- A node of a kind over the empty source. -/
def ofKind (kind : String) (below : List Tree) : Tree := mk ⟨kind, 0, 0, 0, 0, [], 0⟩ below

/-- A function with a branch. -/
def branching (kind : String) : Tree := ofKind "function_definition" [ofKind kind []]

/-- A function with one branching function inside a branch, and another one after it. -/
def twoWithin : Tree :=
  ofKind "function_definition"
    [ofKind "if_statement" [branching "conditional_expression"], branching "while_statement"]

/-- The branch around the first function is counted besides those of the two. -/
theorem complexity_of_nested_twoWithin :
    Apart twoWithin
        [([0, 0], branching "conditional_expression"), ([1], branching "while_statement")] ∧
      ((branching "conditional_expression").complexity LanguageTable.python : Int) - 1
          + (((branching "while_statement").complexity LanguageTable.python : Int) - 1)
        < (twoWithin.complexity LanguageTable.python : Int) - 1 := by
  have hapart : Apart twoWithin
      [([0, 0], branching "conditional_expression"), ([1], branching "while_statement")] := by
    refine ⟨?_, by decide⟩
    intro g hg
    rcases List.mem_cons.mp hg with rfl | hg
    · rfl
    · rw [List.mem_singleton.mp hg]
      rfl
  obtain ⟨hle, hiff, -⟩ := complexity_of_nested LanguageTable.python hapart
  have hne := mt hiff.mp (fun hall => absurd (hall [0] _ rfl (by decide)) (by simp))
  simp only [List.map_cons, List.map_nil, List.sum_cons, List.sum_nil] at hle hne
  exact ⟨hapart, by omega⟩

end SourceIndex.Tree
