import SourceIndex.Data.OrderedMap

/-!
# Ordered maps as functions, and what their values come to

The entries of a map are what its look-ups give (`mem_entries_iff`), so maps with the same look-ups
have the same entries up to order (`perm_of_get?_eq`), and what the values come to in all does not
depend on the order (`total_congr`).
-/

namespace SourceIndex

namespace OrderedMap

variable {κ ν : Type}

/-- What the values of a map come to in all. -/
def total (f : ν → Nat) (m : OrderedMap κ ν) : Nat := m.values.foldr (fun v n => f v + n) 0

theorem mem_keys_of_mem {m : OrderedMap κ ν} {k : κ} {v : ν} (h : (k, v) ∈ m.entries) :
    k ∈ m.keys :=
  List.mem_map.mpr ⟨(k, v), h, rfl⟩

variable [DecidableEq κ]

/-! ## Entries and look-ups -/

theorem not_mem_keys_iff {m : OrderedMap κ ν} {k : κ} : k ∉ m.keys ↔ m.get? k = none := by
  rw [mem_keys_iff, Option.eq_none_iff_forall_ne_some, not_exists]

/-- The entries of a map are what its look-ups give. -/
theorem mem_entries_iff {m : OrderedMap κ ν} {k : κ} {v : ν} :
    (k, v) ∈ m.entries ↔ m.get? k = some v := by
  have hnodup := m.nodup
  unfold get?
  generalize m.entries = l at hnodup ⊢
  induction l with
  | nil => simp
  | cons e rest ih =>
    rw [List.map_cons, List.nodup_cons] at hnodup
    rw [List.mem_cons, lookup_entry]
    by_cases hk : k = e.1
    · have hrest : (k, v) ∉ rest := by
        intro h
        exact hnodup.1 (hk ▸ List.mem_map.mpr ⟨(k, v), h, rfl⟩)
      rw [if_pos hk, Option.some.injEq]
      constructor
      · rintro (h | h)
        · rw [← h]
        · exact absurd h hrest
      · intro h
        exact Or.inl (by rw [hk, ← h])
    · have hne : ¬(k, v) = e := fun h => hk (by rw [← h])
      rw [if_neg hk, or_iff_right hne]
      exact ih hnodup.2

/-- A key that was not there comes in at the end. -/
theorem entries_insert_of_none {m : OrderedMap κ ν} {k : κ} (h : m.get? k = none) (v : ν) :
    (m.insert k v).entries = m.entries ++ [(k, v)] := by
  unfold get? at h
  show put k v m.entries = _
  generalize m.entries = l at h ⊢
  induction l with
  | nil => rfl
  | cons e rest ih =>
    rw [lookup_entry] at h
    split at h
    · cases h
    · next hk => rw [put, if_neg (fun he => hk he.symm), ih h, List.cons_append]

theorem keys_insert_of_none {m : OrderedMap κ ν} {k : κ} (h : m.get? k = none) (v : ν) :
    (m.insert k v).keys = m.keys ++ [k] := by
  rw [keys, entries_insert_of_none h, List.map_append]
  rfl

theorem erase_of_none {m : OrderedMap κ ν} {k : κ} (h : m.get? k = none) : m.erase k = m := by
  have hkeep : m.entries.filter (fun e => decide (e.1 ≠ k)) = m.entries := by
    refine List.filter_eq_self.mpr ?_
    intro e he
    have hne : e.1 ≠ k := by
      rintro rfl
      exact not_mem_keys_iff.mpr h (mem_keys_of_mem he)
    simpa using hne
  obtain ⟨entries, nodup⟩ := m
  simp only [erase, mk.injEq]
  exact hkeep

/-! ## Totals over all entries -/

/-- A key that was not there adds its value to the total. -/
theorem total_insert {m : OrderedMap κ ν} {k : κ} (h : m.get? k = none) (f : ν → Nat) (v : ν) :
    (m.insert k v).total f = m.total f + f v := by
  unfold total values insert
  unfold get? at h
  show ((put k v m.entries).map Prod.snd).foldr _ 0 = _
  generalize m.entries = l at h ⊢
  induction l with
  | nil => simp [put]
  | cons e rest ih =>
    rw [lookup_entry] at h
    split at h
    · cases h
    · next hk =>
      rw [put, if_neg (fun he => hk he.symm)]
      simp only [List.map_cons, List.foldr_cons, ih h]
      omega

/-- A key that was there has its value in the total replaced. -/
theorem total_insert_of_some {m : OrderedMap κ ν} {k : κ} {old : ν} (h : m.get? k = some old)
    (f : ν → Nat) (v : ν) : (m.insert k v).total f + f old = m.total f + f v := by
  unfold total values insert
  unfold get? at h
  show ((put k v m.entries).map Prod.snd).foldr _ 0 + f old = _
  generalize m.entries = l at h ⊢
  induction l with
  | nil => cases h
  | cons e rest ih =>
    rw [lookup_entry] at h
    split at h
    · next hk =>
      rw [put, if_pos hk.symm, ← Option.some.inj h]
      simp only [List.map_cons, List.foldr_cons]
      omega
    · next hk =>
      have hrest := ih h
      rw [put, if_neg (fun he => hk he.symm)]
      simp only [List.map_cons, List.foldr_cons]
      omega

/-- A removed key takes its value from the total. -/
theorem total_erase {m : OrderedMap κ ν} {k : κ} {v : ν} (h : m.get? k = some v) (f : ν → Nat) :
    (m.erase k).total f + f v = m.total f := by
  have hnodup := m.nodup
  unfold total values erase
  unfold get? at h
  show ((m.entries.filter _).map Prod.snd).foldr _ 0 + f v = _
  generalize m.entries = l at h hnodup ⊢
  induction l with
  | nil => cases h
  | cons e rest ih =>
    rw [List.map_cons, List.nodup_cons] at hnodup
    rw [lookup_entry] at h
    split at h
    · next hk =>
      -- No other entry has the key, so that the filter keeps all of them.
      have hkeep : rest.filter (fun e => decide (e.1 ≠ k)) = rest := by
        rw [List.filter_eq_self]
        intro x hx
        have hne : x.1 ≠ k := by
          intro he
          exact hnodup.1 (hk ▸ he ▸ List.mem_map.mpr ⟨x, hx, rfl⟩)
        simp [hne]
      rw [List.filter_cons_of_neg (by simp [hk]), hkeep, ← Option.some.inj h]
      simp only [List.map_cons, List.foldr_cons]
      omega
    · next hk =>
      have hrest := ih h hnodup.2
      rw [List.filter_cons_of_pos (by simpa using fun he => hk he.symm)]
      simp only [List.map_cons, List.foldr_cons]
      omega

theorem perm_of_get?_eq {m n : OrderedMap κ ν} (h : ∀ k, m.get? k = n.get? k) :
    m.entries.Perm n.entries := by
  have hnodup (x : OrderedMap κ ν) : x.entries.Nodup :=
    List.Pairwise.of_map Prod.fst (fun _ _ hne he => hne (congrArg Prod.fst he)) x.nodup
  refine (List.perm_ext_iff_of_nodup (hnodup m) (hnodup n)).mpr ?_
  rintro ⟨k, v⟩
  rw [mem_entries_iff, mem_entries_iff, h]

/-- The total does not depend on the order of the entries. -/
theorem total_congr {m n : OrderedMap κ ν} (h : ∀ k, m.get? k = n.get? k) (f : ν → Nat) :
    m.total f = n.total f := by
  refine ((perm_of_get?_eq h).map Prod.snd).foldr_eq' ?_ 0
  intro x _ y _ z
  omega

end OrderedMap

end SourceIndex
