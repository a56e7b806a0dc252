import SourceIndex.SyntaxTree.Walk

/-!
# Where a tree stands within another

Equal trees may stand in several places of a tree, so a place is told by the way to it from the top:
the number of a child, the number of a child of that child, and so on.  The trees above a place
stand at the beginnings of its address.

**The walk meets the places in the order of their addresses** (`map_snd_located`,
`pairwise_located`), compared number by number, a beginning before what it begins; and it meets
every place (`mem_located_iff`).
-/

namespace SourceIndex

/-- The way from the top of a tree to a place in it, as numbers of children. -/
abbrev Address := List Nat

namespace Tree

/-- The tree at an address. -/
def subtree? : Address → Tree → Option Tree
  | [], t => some t
  | i :: p, t => t.children[i]?.bind (subtree? p)

@[simp] theorem subtree?_nil (t : Tree) : t.subtree? [] = some t := rfl

theorem subtree?_cons_eq_some {t s : Tree} {i : Nat} {p : Address} :
    t.subtree? (i :: p) = some s ↔ ∃ c, t.children[i]? = some c ∧ c.subtree? p = some s := by
  rw [subtree?, Option.bind_eq_some_iff]

/-- The way along `p ++ q` is the way along `p` and on along `q`. -/
theorem subtree?_append (t : Tree) (p q : Address) :
    t.subtree? (p ++ q) = (t.subtree? p).bind (subtree? q) := by
  induction p generalizing t with
  | nil => rfl
  | cons i p ih =>
    rw [List.cons_append, subtree?, subtree?]
    cases t.children[i]? with
    | none => rfl
    | some c => exact ih c

/-- A beginning of an address does not come after it. -/
theorem not_append_lt (p q : Address) : ¬p ++ q < p := by
  induction p with
  | nil => exact List.not_lt_nil q
  | cons i p ih =>
    intro h
    rcases List.cons_lt_cons_iff.mp h with hlt | ⟨-, hlt⟩
    · exact Nat.lt_irrefl i hlt
    · exact ih hlt

/-! ## All places in order -/

mutual

/-- The trees within a tree with their addresses, in pre-order. -/
def located : Tree → List (Address × Tree)
  | mk n ts => ([], mk n ts) :: locatedFrom 0 ts

/-- The trees within several trees, of which the first is the child of number `i`. -/
def locatedFrom (i : Nat) : List Tree → List (Address × Tree)
  | [] => []
  | t :: ts => (located t).map (fun e => (i :: e.1, e.2)) ++ locatedFrom (i + 1) ts

end

theorem located_eq (t : Tree) : t.located = ([], t) :: locatedFrom 0 t.children := by
  cases t with
  | mk n ts => rw [located]; rfl

theorem locatedFrom_append (i : Nat) (ts us : List Tree) :
    locatedFrom i (ts ++ us) = locatedFrom i ts ++ locatedFrom (i + ts.length) us := by
  induction ts generalizing i with
  | nil => rfl
  | cons t ts ih =>
    rw [List.cons_append, locatedFrom, locatedFrom, ih, List.append_assoc, List.length_cons,
      Nat.add_assoc, Nat.add_comm 1]

mutual

theorem map_snd_located_preorder : ∀ t : Tree, t.located.map Prod.snd = t.preorder
  | mk n ts => by rw [located, preorder, List.map_cons, map_snd_locatedFrom 0 ts]

theorem map_snd_locatedFrom : ∀ (i : Nat) (ts : List Tree),
    (locatedFrom i ts).map Prod.snd = preorderAll ts
  | _, [] => rfl
  | i, t :: ts => by
    rw [locatedFrom, preorderAll, List.map_append, List.map_map, map_snd_locatedFrom (i + 1) ts,
      ← map_snd_located_preorder t]
    rfl

end

/-- The walk meets the trees of the places in order. -/
theorem map_snd_located (t : Tree) : t.located.map Prod.snd = t.walk := by
  rw [walk_eq_preorder, map_snd_located_preorder]

mutual

/-- Every place is met. -/
theorem mem_located_iff : ∀ (t : Tree) (p : Address) (s : Tree),
    (p, s) ∈ t.located ↔ t.subtree? p = some s
  | mk n ts, p, s => by
    rw [located, List.mem_cons, mem_locatedFrom_iff 0 ts p s]
    cases p with
    | nil => simp [eq_comm]
    | cons i p =>
      rw [subtree?_cons_eq_some]
      constructor
      · rintro (h | ⟨j, q, c, hp, hc, hs⟩)
        · cases h
        · obtain ⟨rfl, rfl⟩ := List.cons.inj hp
          exact ⟨c, by rwa [Nat.zero_add], hs⟩
      · rintro ⟨c, hc, hs⟩
        exact Or.inr ⟨i, p, c, by rw [Nat.zero_add], hc, hs⟩

/-- The address of a place within several trees begins with the number of the tree. -/
theorem mem_locatedFrom_iff : ∀ (i : Nat) (ts : List Tree) (p : Address) (s : Tree),
    (p, s) ∈ locatedFrom i ts ↔
      ∃ j q c, p = (i + j) :: q ∧ ts[j]? = some c ∧ c.subtree? q = some s
  | i, [], p, s => by simp [locatedFrom]
  | i, t :: ts, p, s => by
    rw [locatedFrom, List.mem_append, mem_locatedFrom_iff (i + 1) ts p s, List.mem_map]
    constructor
    · rintro (⟨⟨q, s'⟩, he, h⟩ | ⟨j, q, c, rfl, hc, hs⟩)
      · obtain ⟨rfl, rfl⟩ := Prod.mk.inj h
        exact ⟨0, q, t, rfl, rfl, (mem_located_iff t q s').mp he⟩
      · exact ⟨j + 1, q, c, by rw [Nat.add_assoc, Nat.add_comm 1], hc, hs⟩
    · rintro ⟨j, q, c, rfl, hc, hs⟩
      cases j with
      | zero =>
        obtain rfl : t = c := Option.some.inj hc
        exact Or.inl ⟨(q, s), (mem_located_iff t q s).mpr hs, rfl⟩
      | succ j =>
        exact Or.inr ⟨j, q, c, by rw [Nat.add_assoc, Nat.add_comm 1], hc, hs⟩

end

/-- A walk meets what stands at some address. -/
theorem mem_walk_iff {s t : Tree} : s ∈ t.walk ↔ ∃ p, t.subtree? p = some s := by
  rw [← map_snd_located, List.mem_map]
  constructor
  · rintro ⟨⟨p, s⟩, he, rfl⟩
    exact ⟨p, (mem_located_iff t p s).mp he⟩
  · rintro ⟨p, hp⟩
    exact ⟨(p, s), (mem_located_iff t p s).mpr hp, rfl⟩

/-- What a walk of a tree within meets, the walk of the whole meets too. -/
theorem mem_walk_trans {r s t : Tree} (h : r ∈ s.walk) (hs : s ∈ t.walk) : r ∈ t.walk := by
  obtain ⟨q, hq⟩ := mem_walk_iff.mp h
  obtain ⟨p, hp⟩ := mem_walk_iff.mp hs
  exact mem_walk_iff.mpr ⟨p ++ q, by rw [subtree?_append, hp]; exact hq⟩

theorem mem_walk_of_mem_children {c t : Tree} (h : c ∈ t.children) : c ∈ t.walk := by
  obtain ⟨i, hi⟩ := List.getElem?_of_mem h
  exact mem_walk_iff.mpr ⟨[i], subtree?_cons_eq_some.mpr ⟨c, hi, rfl⟩⟩

mutual

theorem pairwise_located : ∀ t : Tree, t.located.Pairwise (fun a b => a.1 < b.1)
  | mk n ts => by
    rw [located, List.pairwise_cons]
    refine ⟨?_, pairwise_locatedFrom 0 ts⟩
    rintro ⟨p, s⟩ he
    obtain ⟨j, q, c, rfl, -⟩ := (mem_locatedFrom_iff 0 ts p s).mp he
    exact List.nil_lt_cons _ _

theorem pairwise_locatedFrom : ∀ (i : Nat) (ts : List Tree),
    (locatedFrom i ts).Pairwise (fun a b => a.1 < b.1)
  | _, [] => List.Pairwise.nil
  | i, t :: ts => by
    rw [locatedFrom, List.pairwise_append, List.pairwise_map]
    refine ⟨?_, pairwise_locatedFrom (i + 1) ts, ?_⟩
    · exact (pairwise_located t).imp (fun h => List.cons_lt_cons_iff.mpr (Or.inr ⟨rfl, h⟩))
    · rintro e he ⟨p, s⟩ hp
      obtain ⟨e', -, rfl⟩ := List.mem_map.mp he
      obtain ⟨j, q, c, rfl, -⟩ := (mem_locatedFrom_iff (i + 1) ts p s).mp hp
      exact List.cons_lt_cons_iff.mpr (Or.inl (by omega))

end

end Tree

end SourceIndex
