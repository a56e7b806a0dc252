import SourceIndex.FileSystem.Links
import SourceIndex.Proofs.OrderedMap

/-!
# Locations without links

A location is *settled* if no link stands there, nor anywhere on the way from the root.  Resolving
gives settled locations (`settled_of_resolve`), and **a settled location resolves to itself**
(`resolve_of_settled`), so that to resolve twice is to resolve once.

Whatever stands somewhere and is not a link stands at a settled location (`settled_of_entry`),
because everything stands in a directory.  Following its path leads there (`follow_of_entry`); and
wherever a settled path leads, it leads there word for word (`eq_of_follow`).
-/

namespace SourceIndex.Volume

variable {v : Volume} {here there : Location} {part : String} {parts rest : List String}

/-! ## Everything stands in a directory -/

theorem placed_of_entry {entry : Entry} (hne : here ≠ []) (h : v.standing? here = some entry) :
    Entry.Placed v.entries here entry := by
  refine v.placed here entry ?_
  rw [← Entry.at?_of_ne_nil hne]
  exact h

theorem proper_of_entry {entry : Entry} (h : v.standing? here = some entry) : here.Proper := by
  by_cases hne : here = []
  · rw [hne]
    exact proper_nil
  · exact (placed_of_entry hne h).name

theorem directory_of_concat {entry : Entry} (h : v.standing? (here ++ [part]) = some entry) :
    v.standing? here = some .directory := by
  have hparent := (placed_of_entry (by simp) h).parent
  rw [List.dropLast_concat] at hparent
  exact hparent

/-- Every location that a thing stands below is a directory. -/
theorem directory_of_below {entry : Entry} (h : v.standing? (here ++ part :: rest) = some entry) :
    v.standing? here = some .directory := by
  -- From the thing upwards: the last component is taken off until only `part` is left.
  generalize hback : rest.reverse = back
  induction back generalizing rest entry with
  | nil =>
    rw [List.reverse_eq_nil_iff.mp hback] at h
    exact directory_of_concat h
  | cons last others ih =>
    have hrest : rest = others.reverse ++ [last] := by
      rw [← List.reverse_reverse rest, hback, List.reverse_cons]
    rw [hrest, ← List.cons_append, ← List.append_assoc] at h
    exact ih (directory_of_concat h) (List.reverse_reverse others)

theorem link?_eq_some {target : Path} :
    v.link? here = some target ↔ v.standing? here = some (.link target) := by
  unfold link?
  split
  · next found h => simp [h]
  · next h =>
    simp only [reduceCtorEq, false_iff]
    exact h target

theorem link?_of_directory (h : v.standing? here = some .directory) : v.link? here = none := by
  rw [link?, h]

theorem get?_of_link {target : Path} (h : v.link? here = some target) :
    v.entries.get? here = some (.link target) := by
  have hstands := link?_eq_some.mp h
  have hne : here ≠ [] := by
    rintro rfl
    cases hstands
  rw [← Entry.at?_of_ne_nil hne]
  exact hstands

theorem proper_of_link {target : Path} (h : v.link? here = some target) : target.Proper :=
  (v.placed here _ (get?_of_link h)).target

theorem link?_of_linkCount (h : v.linkCount = 0) (here : Location) : v.link? here = none := by
  refine Option.eq_none_iff_forall_ne_some.mpr ?_
  intro target ht
  have hmem : Entry.link target ∈ v.entries.values :=
    List.mem_map.mpr ⟨_, OrderedMap.mem_entries_iff.mpr (get?_of_link ht), rfl⟩
  exact List.countP_eq_zero.mp h _ hmem rfl

/-! ## Settled locations -/

/-- A location can be named, and there is no link on the way to it. -/
structure Settled (v : Volume) (here : Location) : Prop where
  proper : here.Proper
  unlinked : ∀ above, above <+: here → v.link? above = none

theorem settled_nil (v : Volume) : v.Settled [] where
  proper := proper_nil
  unlinked := by
    intro above h
    rw [List.prefix_nil.mp h]
    rfl

theorem Settled.step (h : v.Settled here) (hp : part ≠ ".." → Path.isName part = true)
    (hl : v.link? (Path.step here part) = none) : v.Settled (Path.step here part) where
  proper := proper_step h.proper hp
  unlinked := by
    intro above ha
    unfold Path.step at ha hl
    split at ha
    · exact h.unlinked above (ha.trans (List.dropLast_prefix here))
    · next hup =>
      rw [if_neg hup] at hl
      rcases List.prefix_concat_iff.mp ha with rfl | ha
      · exact hl
      · exact h.unlinked above ha

theorem Settled.start (h : v.Settled here) (target : Path) : v.Settled (target.start here) := by
  unfold Path.start
  split
  · exact v.settled_nil
  · exact h

/-- What stands somewhere and is no link stands at a settled location. -/
theorem settled_of_entry {entry : Entry} (h : v.standing? here = some entry)
    (hl : v.link? here = none) : v.Settled here where
  proper := proper_of_entry h
  unlinked := by
    rintro above ⟨rest, rfl⟩
    cases rest with
    | nil =>
      rw [List.append_nil] at hl
      exact hl
    | cons part rest => exact link?_of_directory (directory_of_below h)

/-! ## Settling -/

/-- What settling leads to is settled, if what entering a link leads to is. -/
theorem settled_of_settle
    {enter : List Location → Location → List String → Except Location Location}
    (henter : ∀ trail start parts there, v.Settled start →
      (∀ part ∈ parts, part ≠ ".." → Path.isName part = true) →
      enter trail start parts = .ok there → v.Settled there)
    {trail : List Location} (h : v.Settled here)
    (hp : ∀ part ∈ parts, part ≠ ".." → Path.isName part = true)
    (hs : v.settle enter trail here parts = .ok there) : v.Settled there := by
  induction parts generalizing here with
  | nil => exact Except.ok.inj hs ▸ h
  | cons part rest ih =>
    have hrest : ∀ name ∈ rest, name ≠ ".." → Path.isName name = true :=
      fun name hn => hp name (List.mem_cons_of_mem part hn)
    rw [settle] at hs
    split at hs
    · next hl => exact ih (h.step (hp part List.mem_cons_self) hl) hrest hs
    · next target hl =>
      split at hs
      · cases hs
      · split at hs
        · cases hs
        · next found he =>
          exact ih (henter _ _ _ _ (h.start target) (proper_of_link hl) he) hrest hs

theorem settled_of_settleWithin {depth : Nat} {trail : List Location} (h : v.Settled here)
    (hp : ∀ part ∈ parts, part ≠ ".." → Path.isName part = true)
    (hs : v.settleWithin depth trail here parts = .ok there) : v.Settled there := by
  induction depth generalizing trail here parts there with
  | zero => exact settled_of_settle (fun _ _ _ _ _ _ he => by cases he) h hp hs
  | succ depth ih =>
    exact settled_of_settle (fun _ _ _ _ hstart hparts he => ih hstart hparts he) h hp hs

/-- **Resolving leads to a settled location.** -/
theorem settled_of_resolve (hp : ∀ part ∈ parts, part ≠ ".." → Path.isName part = true)
    (hs : v.resolve parts = .ok there) : v.Settled there :=
  settled_of_settleWithin v.settled_nil hp hs

theorem step_of_proper (here : Location) (h : Location.Proper (part :: rest)) :
    Path.step here part ++ rest = here ++ part :: rest := by
  have hup : part ≠ ".." := (Path.isName_iff.mp (h part List.mem_cons_self)).2.1
  rw [Path.step, if_neg (by simpa using hup), List.append_assoc, List.singleton_append]

/-- Without links, settling goes word for word. -/
theorem settle_of_settled
    {enter : List Location → Location → List String → Except Location Location}
    {trail : List Location} (hp : Location.Proper parts)
    (hl : ∀ above, above <+: here ++ parts → v.link? above = none) :
    v.settle enter trail here parts = .ok (here ++ parts) := by
  induction parts generalizing here with
  | nil => rw [settle, List.append_nil]
  | cons part rest ih =>
    have hstep := step_of_proper here hp
    rw [← hstep] at hl ⊢
    rw [settle, hl _ (List.prefix_append _ _)]
    exact ih (fun name hn => hp name (List.mem_cons_of_mem part hn)) hl

/-- **A settled location resolves to itself.** -/
theorem resolve_of_settled (h : v.Settled here) : v.resolve here = .ok here := by
  unfold resolve
  cases v.linkCount with
  | zero => exact settle_of_settled h.proper h.unlinked
  | succ depth => exact settle_of_settled h.proper h.unlinked

/-! ## Following -/

/-- To what is no link one comes over directories alone. -/
theorem walk_of_entry {enter : Location → List String → Except ReadError Location} {entry : Entry}
    (here : Location) (h : v.standing? (here ++ parts) = some entry)
    (hl : v.link? (here ++ parts) = none) (hp : Location.Proper parts) :
    v.walk enter here parts = .ok (here ++ parts) := by
  induction parts generalizing here with
  | nil => rw [walk, List.append_nil]
  | cons part rest ih =>
    have hstep := step_of_proper here hp
    have hnext : v.link? (Path.step here part) = none := by
      rw [← hstep] at h hl
      exact (settled_of_entry h hl).unlinked _ (List.prefix_append _ _)
    rw [walk, directory_of_below h]
    simp only [hnext]
    rw [← hstep] at h hl ⊢
    exact ih _ h hl (fun name hn => hp name (List.mem_cons_of_mem part hn))

theorem follow_of_entry {entry : Entry} (h : v.standing? here = some entry)
    (hl : v.link? here = none) : v.follow [] here = .ok here :=
  walk_of_entry [] h hl (proper_of_entry h)

theorem eq_of_walk {enter : Location → List String → Except ReadError Location} (here : Location)
    (hp : Location.Proper parts) (hl : ∀ above, above <+: here ++ parts → v.link? above = none)
    (h : v.walk enter here parts = .ok there) : there = here ++ parts := by
  induction parts generalizing here with
  | nil => rw [List.append_nil, Except.ok.inj h]
  | cons part rest ih =>
    have hstep := step_of_proper here hp
    rw [walk] at h
    rw [← hstep] at hl ⊢
    split at h
    · rw [hl _ (List.prefix_append _ _)] at h
      exact ih _ (fun name hn => hp name (List.mem_cons_of_mem part hn)) hl h
    · cases h
    · cases h

/-- A settled location leads nowhere but to itself. -/
theorem eq_of_follow (hs : v.Settled here) (h : v.follow [] here = .ok there) : there = here :=
  eq_of_walk [] hs.proper hs.unlinked h

/-! ## Volumes with the same links -/

section Congr

variable {w : Volume}

theorem settle_congr {enter enter' : List Location → Location → List String →
    Except Location Location} (h : ∀ there, v.link? there = w.link? there) (he : enter = enter')
    (trail : List Location) (here : Location) (parts : List String) :
    v.settle enter trail here parts = w.settle enter' trail here parts := by
  subst he
  induction parts generalizing here with
  | nil => rfl
  | cons part rest ih => simp only [settle, h, ih]

theorem settleWithin_congr (h : ∀ there, v.link? there = w.link? there) (depth : Nat) :
    v.settleWithin depth = w.settleWithin depth := by
  induction depth with
  | zero =>
    funext trail here parts
    exact settle_congr h rfl trail here parts
  | succ depth ih =>
    funext trail here parts
    exact settle_congr h ih trail here parts

/-- Where paths are resolved to is told by the links alone. -/
theorem resolve_congr (h : ∀ there, v.link? there = w.link? there)
    (hc : v.linkCount = w.linkCount) (parts : List String) : v.resolve parts = w.resolve parts := by
  rw [resolve, resolve, hc, settleWithin_congr h]

/-- Where paths lead is told by the links and the directories; what else stands where does not
matter. -/
theorem walk_congr {enter enter' : Location → List String → Except ReadError Location}
    (h : ∀ there, v.link? there = w.link? there)
    (hd : ∀ there, v.standing? there = some .directory ↔ w.standing? there = some .directory)
    (hn : ∀ there, v.standing? there = none ↔ w.standing? there = none) (he : enter = enter')
    (here : Location) (parts : List String) : v.walk enter here parts = w.walk enter' here parts := by
  subst he
  induction parts generalizing here with
  | nil => rfl
  | cons part rest ih =>
    rw [walk, walk]
    split
    · next hv => simp only [(hd here).mp hv, h, ih]
    · next entry hne hv =>
      split
      · next hw => exact absurd (hd here |>.mpr hw) (by rw [hv]; simpa using hne)
      · rfl
      · next hw => rw [(hn here).mpr hw] at hv; cases hv
    · next hv => rw [(hn here).mp hv]

theorem followWithin_congr (h : ∀ there, v.link? there = w.link? there)
    (hd : ∀ there, v.standing? there = some .directory ↔ w.standing? there = some .directory)
    (hn : ∀ there, v.standing? there = none ↔ w.standing? there = none) (links : Nat) :
    v.followWithin links = w.followWithin links := by
  induction links with
  | zero =>
    funext here parts
    exact walk_congr h hd hn rfl here parts
  | succ links ih =>
    funext here parts
    exact walk_congr h hd hn ih here parts

/-- The links are counted by what stands under them. -/
theorem linkCount_congr (h : ∀ there target, v.entries.get? there = some (.link target) ↔
    w.entries.get? there = some (.link target)) : v.linkCount = w.linkCount := by
  have hcount (u : Volume) : u.linkCount
      = (u.entries.entries.filter (fun e => e.2.isLink)).length := by
    rw [linkCount, OrderedMap.values, List.countP_map, List.countP_eq_length_filter]
    rfl
  have hnodup (u : Volume) : (u.entries.entries.filter (fun e => e.2.isLink)).Nodup := by
    refine List.Pairwise.filter _ ((List.pairwise_map.mp u.entries.nodup).imp ?_)
    exact fun hne he => hne (congrArg Prod.fst he)
  rw [hcount, hcount]
  refine List.Perm.length_eq ((List.perm_ext_iff_of_nodup (hnodup v) (hnodup w)).mpr ?_)
  rintro ⟨there, entry⟩
  simp only [List.mem_filter, OrderedMap.mem_entries_iff]
  cases entry with
  | link target => rw [h there target]
  | file content => simp [Entry.isLink]
  | directory => simp [Entry.isLink]

end Congr

end SourceIndex.Volume
