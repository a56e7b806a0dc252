import Mathlib.Data.List.Basic
import SourceIndex.Proofs.SyntaxTree.Address

/-!
# A tree put among the children of another

`insertAt` puts a new tree among the children at an address.  The trees above the address are then
other trees, and those away from it stand as they were, though some under other addresses.  So what
a walk picks changes only above the address: **there it changes as a single pick does, and elsewhere
not at all** (`Inserted.filterMap_walk`).

A reading is *blind* to the new tree if no tree reads differently once it stands somewhere within.
What is read of the children is blind if the new tree gives nothing to it and what is read of each
child is blind (`Blind.filterMap_children`).
-/

namespace SourceIndex.Tree

/-- Puts the tree `new` among the children at an address, before the child of number `i`. -/
def insertAt : Tree → Address → Nat → Tree → Tree
  | t, [], i, new => mk t.node (t.children.insertIdx i new)
  | t, k :: p, i, new => mk t.node (t.children.modify k (fun c => c.insertAt p i new))

/-- `Inserted new p t u`: the tree `u` is `t` with `new` among the children at `p`. -/
inductive Inserted (new : Tree) : Address → Tree → Tree → Prop
  | here (n : Node) (before after : List Tree) :
      Inserted new [] (mk n (before ++ after)) (mk n (before ++ new :: after))
  | inside (n : Node) (before after : List Tree) {p : Address} {c d : Tree}
      (h : Inserted new p c d) :
      Inserted new (before.length :: p) (mk n (before ++ c :: after)) (mk n (before ++ d :: after))

theorem inserted_insertAt {t n : Tree} {p : Address} (h : t.subtree? p = some n) {i : Nat}
    (hi : i ≤ n.children.length) (new : Tree) : Inserted new p t (t.insertAt p i new) := by
  induction p generalizing t with
  | nil =>
    obtain rfl : t = n := Option.some.inj h
    obtain ⟨before, after, hsplit, -, hinsert⟩ := List.exists_of_modifyTailIdx (List.cons new) hi
    rw [insertAt, List.insertIdx, hinsert]
    cases t with
    | mk node ts =>
      obtain rfl : ts = before ++ after := hsplit
      exact Inserted.here node before after
  | cons k p ih =>
    obtain ⟨c, hc, hn⟩ := subtree?_cons_eq_some.mp h
    obtain ⟨hk, -⟩ := List.getElem?_eq_some_iff.mp hc
    obtain ⟨before, d, after, hsplit, rfl, hmodify⟩ :=
      List.exists_of_modify (fun c => c.insertAt p i new) hk
    obtain rfl : d = c := by simpa [hsplit] using hc
    rw [insertAt, hmodify]
    cases t with
    | mk node ts =>
      obtain rfl : ts = before ++ d :: after := hsplit
      exact Inserted.inside node before after (ih hn)

variable {new : Tree} {p : Address} {t u : Tree} {α : Type}

theorem Inserted.node_eq (h : Inserted new p t u) : u.node = t.node := by
  cases h with
  | here => rfl
  | inside => rfl

/-! ## Blind readings -/

/-- No tree reads differently once `new` stands somewhere within it. -/
def Blind (new : Tree) (read : Tree → α) : Prop :=
  ∀ p t u, Inserted new p t u → read u = read t

/-- What is picked of the children is blind to a tree of which nothing is picked. -/
theorem Blind.filterMap_children {pick : Tree → Option α} (h : Blind new pick)
    (hnew : pick new = none) : Blind new (fun t => t.children.filterMap pick) := by
  intro p t u hins
  cases hins with
  | here n before after =>
    change (before ++ new :: after).filterMap pick = (before ++ after).filterMap pick
    rw [List.filterMap_append, List.filterMap_append, List.filterMap_cons_none hnew]
  | inside n before after hbelow =>
    change (before ++ _ :: after).filterMap pick = (before ++ _ :: after).filterMap pick
    rw [List.filterMap_append, List.filterMap_append, List.filterMap_cons, List.filterMap_cons,
      h _ _ _ hbelow]

theorem Blind.findSome?_children {pick : Tree → Option α} (h : Blind new pick)
    (hnew : pick new = none) : Blind new (fun t => t.children.findSome? pick) := by
  intro p t u hins
  have hpicked := congrArg List.head? (h.filterMap_children hnew p t u hins)
  rwa [List.head?_filterMap, List.head?_filterMap] at hpicked

/-! ## The child under a field -/

/-- `Alike new o o'`: two searches found nothing, or found the same tree, or the second found the
tree that the first found with `new` somewhere within. -/
inductive Alike (new : Tree) : Option Tree → Option Tree → Prop
  | same (o : Option Tree) : Alike new o o
  | inserted {p : Address} {c d : Tree} (h : Inserted new p c d) : Alike new (some c) (some d)

theorem Alike.orElse {o o' l l' : Option Tree} (h : Alike new o o') (hl : Alike new l l') :
    Alike new (o <|> l) (o' <|> l') := by
  cases h with
  | same o =>
    cases o with
    | none => exact hl
    | some c => exact Alike.same _
  | inserted h => exact Alike.inserted h

/-- A tree that is under no field is not found under one. -/
theorem Inserted.alike_child? (h : Inserted new p t u) (hnew : new.node.fields = [])
    (field : String) : Alike new (t.child? field) (u.child? field) := by
  have hnot : new.node.fields.contains field = false := by
    rw [hnew]
    rfl
  cases h with
  | here n before after =>
    change Alike new ((before ++ after).find? _) ((before ++ new :: after).find? _)
    rw [List.find?_append, List.find?_append, List.find?_cons_of_neg (by rw [hnot]; decide)]
    exact Alike.same _
  | @inside n before after p c d hbelow =>
    change Alike new ((before ++ c :: after).find? _) ((before ++ d :: after).find? _)
    rw [List.find?_append, List.find?_append, List.find?_cons, List.find?_cons, hbelow.node_eq]
    cases before.find? (fun c => c.node.fields.contains field) with
    | some found => exact Alike.same _
    | none =>
      cases c.node.fields.contains field with
      | true => exact Alike.inserted hbelow
      | false => exact Alike.same _

theorem Inserted.alike_findSome? (h : Inserted new p t u) (hnew : new.node.fields = [])
    (fields : List String) :
    Alike new (fields.findSome? t.child?) (fields.findSome? u.child?) := by
  induction fields with
  | nil => exact Alike.same none
  | cons field rest ih =>
    have hcons : ∀ t : Tree, (field :: rest).findSome? t.child?
        = (t.child? field <|> rest.findSome? t.child?) := by
      intro t
      rw [List.findSome?_cons]
      cases t.child? field <;> rfl
    rw [hcons, hcons]
    exact (h.alike_child? hnew field).orElse ih

/-! ## What a walk picks -/

/-- Picks from the places of a tree, and changes by `step` what is picked on the way to `p`. -/
def pickAlong (pick : Tree → Option α) (step : α → α) (p : Address) (e : Address × Tree) :
    Option α :=
  (pick e.2).map (fun a => if e.1 <+: p then step a else a)

theorem pickAlong_nil (pick : Tree → Option α) (step : α → α) (p : Address) (t : Tree) :
    pickAlong pick step p ([], t) = (pick t).map step := by
  unfold pickAlong
  simp only [List.nil_prefix, if_true]

theorem pickAlong_cons (pick : Tree → Option α) (step : α → α) (k : Nat) (p : Address)
    (e : Address × Tree) :
    pickAlong pick step (k :: p) (k :: e.1, e.2) = pickAlong pick step p e := by
  unfold pickAlong
  simp only [List.cons_prefix_cons, true_and]

/-- Away from the address, nothing is changed. -/
theorem filterMap_pickAlong_of_away {pick : Tree → Option α} {step : α → α} {i : Nat}
    {ts : List Tree} (h : ∀ j q, j < ts.length → ¬((i + j) :: q) <+: p) :
    (locatedFrom i ts).filterMap (pickAlong pick step p) = (preorderAll ts).filterMap pick := by
  rw [← map_snd_locatedFrom i ts, List.filterMap_map]
  refine List.filterMap_congr ?_
  rintro ⟨q, s⟩ he
  obtain ⟨j, q, c, rfl, hc, -⟩ := (mem_locatedFrom_iff i ts q s).mp he
  obtain ⟨hj, -⟩ := List.getElem?_eq_some_iff.mp hc
  unfold pickAlong
  simp only [if_neg (h j q hj), Option.map_id', Function.comp_apply]

/-- What is picked of the topmost node and what is picked below it make up what a walk picks. -/
theorem filterMap_walk_of_below {pick : Tree → Option α} {step : α → α}
    (hown : pick u = (pick t).map step)
    (hbelow : (preorderAll u.children).filterMap pick
      = (locatedFrom 0 t.children).filterMap (pickAlong pick step p)) :
    u.walk.filterMap pick = t.located.filterMap (pickAlong pick step p) := by
  rw [walk_eq_preorder, preorder_eq, ← preorderAll_eq_flatMap, located_eq, List.filterMap_cons,
    List.filterMap_cons, hown, hbelow, pickAlong_nil]

/-- **A walk picks the same as before, changed by `step` where the new tree lies within.** -/
theorem Inserted.filterMap_walk (h : Inserted new p t u) {pick : Tree → Option α} {step : α → α}
    (hpick : ∀ p t u, Inserted new p t u → pick u = (pick t).map step)
    (hnew : new.walk.filterMap pick = []) :
    u.walk.filterMap pick = t.located.filterMap (pickAlong pick step p) := by
  rw [walk_eq_preorder] at hnew
  induction h with
  | here n before after =>
    refine filterMap_walk_of_below (hpick _ _ _ (.here n before after)) ?_
    change (preorderAll (before ++ new :: after)).filterMap pick
      = (locatedFrom 0 (before ++ after)).filterMap _
    rw [filterMap_pickAlong_of_away (by simp), preorderAll_append, preorderAll_append, preorderAll]
    simp only [List.filterMap_append, hnew, List.nil_append]
  | @inside n before after p c d h ih =>
    refine filterMap_walk_of_below (hpick _ _ _ (.inside n before after h)) ?_
    change (preorderAll (before ++ d :: after)).filterMap pick
      = (locatedFrom 0 (before ++ c :: after)).filterMap _
    -- The children before and after the one on the way have other numbers than the address.
    have hbefore : ∀ j q, j < before.length → ¬((0 + j) :: q) <+: before.length :: p := by
      intro j q hj hprefix
      have := (List.cons_prefix_cons.mp hprefix).1
      omega
    have hafter : ∀ j q, j < after.length →
        ¬((0 + before.length + 1 + j) :: q) <+: before.length :: p := by
      intro j q _ hprefix
      have := (List.cons_prefix_cons.mp hprefix).1
      omega
    have hinside : ((located c).map (fun e => ((0 + before.length) :: e.1, e.2))).filterMap
        (pickAlong pick step (before.length :: p)) = d.preorder.filterMap pick := by
      rw [List.filterMap_map, ← walk_eq_preorder, ih, Nat.zero_add]
      exact List.filterMap_congr (fun e _ => pickAlong_cons pick step before.length p e)
    rw [locatedFrom_append, locatedFrom, preorderAll_append, preorderAll]
    simp only [List.filterMap_append, hinside, filterMap_pickAlong_of_away hbefore,
      filterMap_pickAlong_of_away hafter]

/-- A walk picks the same as before, if what it picks is blind to the new tree. -/
theorem Blind.filterMap_walk {pick : Tree → Option α} (h : Blind new pick)
    (hnew : new.walk.filterMap pick = []) : Blind new (fun t => t.walk.filterMap pick) := by
  intro p t u hins
  have hpick : ∀ p t u, Inserted new p t u → pick u = (pick t).map id := by
    intro p t u hins
    rw [h p t u hins, Option.map_id, id]
  change u.walk.filterMap pick = t.walk.filterMap pick
  rw [hins.filterMap_walk hpick hnew, ← map_snd_located, List.filterMap_map]
  refine List.filterMap_congr ?_
  intro e _
  simp only [pickAlong, id, ite_self, Option.map_id', Function.comp_apply]

end SourceIndex.Tree
