/-!
# Maps that remember the order of insertion

A map from keys to values whose entries keep the order in which their keys first came in.  Giving
a key a new value keeps its place; a key that is removed and comes in again goes to the end.

**No key occurs twice** is part of the type (`nodup`), so that the entries are a function of the
key.
-/

namespace SourceIndex

/-- Entries in order of insertion, at most one for each key. -/
structure OrderedMap (κ : Type) (ν : Type) where
  /-- The entries, the oldest first. -/
  entries : List (κ × ν)
  /-- No key occurs twice. -/
  nodup : (entries.map Prod.fst).Nodup

namespace OrderedMap

variable {κ ν : Type}

/-- The map without entries. -/
def empty : OrderedMap κ ν := ⟨[], List.nodup_nil⟩

instance : Inhabited (OrderedMap κ ν) := ⟨empty⟩

/-- The keys, the oldest first. -/
def keys (m : OrderedMap κ ν) : List κ := m.entries.map Prod.fst

/-- The values, the oldest first. -/
def values (m : OrderedMap κ ν) : List ν := m.entries.map Prod.snd

/-- How many entries there are. -/
def size (m : OrderedMap κ ν) : Nat := m.entries.length

variable [DecidableEq κ]

/-- The value of a key. -/
def get? (m : OrderedMap κ ν) (k : κ) : Option ν := m.entries.lookup k

/-- Whether a key has a value. -/
def contains (m : OrderedMap κ ν) (k : κ) : Bool := (m.get? k).isSome

/-- Gives `k` the value `v` where `k` stands, or at the end if it stands nowhere. -/
def put (k : κ) (v : ν) : List (κ × ν) → List (κ × ν)
  | [] => [(k, v)]
  | e :: rest => if e.1 = k then (k, v) :: rest else e :: put k v rest

theorem fst_put_subset {k : κ} {v : ν} {l : List (κ × ν)} {x : κ}
    (h : x ∈ (put k v l).map Prod.fst) : x = k ∨ x ∈ l.map Prod.fst := by
  induction l with
  | nil => simpa [put] using h
  | cons e rest ih =>
    rw [put] at h
    split at h
    · rename_i he
      simp only [List.map_cons, List.mem_cons] at h ⊢
      exact h.imp_right Or.inr
    · simp only [List.map_cons, List.mem_cons] at h ⊢
      rcases h with h | h
      · exact Or.inr (Or.inl h)
      · exact (ih h).imp_right Or.inr

theorem nodup_put (k : κ) (v : ν) {l : List (κ × ν)} (h : (l.map Prod.fst).Nodup) :
    ((put k v l).map Prod.fst).Nodup := by
  induction l with
  | nil => simp [put]
  | cons e rest ih =>
    rw [List.map_cons, List.nodup_cons] at h
    rw [put]
    split
    · rename_i he
      rw [List.map_cons, List.nodup_cons]
      exact ⟨he ▸ h.1, h.2⟩
    · rename_i he
      rw [List.map_cons, List.nodup_cons]
      refine ⟨fun hm => ?_, ih h.2⟩
      rcases fst_put_subset hm with hk | hm
      · exact he hk
      · exact h.1 hm

/-- Gives a key a value, keeping its place if it has one. -/
def insert (m : OrderedMap κ ν) (k : κ) (v : ν) : OrderedMap κ ν :=
  ⟨put k v m.entries, nodup_put k v m.nodup⟩

/-- Removes a key and its value. -/
def erase (m : OrderedMap κ ν) (k : κ) : OrderedMap κ ν :=
  ⟨m.entries.filter (fun e => decide (e.1 ≠ k)),
    m.nodup.sublist (List.filter_sublist.map Prod.fst)⟩

/-- Keeps the entries that satisfy `p`. -/
def filter (p : κ → ν → Bool) (m : OrderedMap κ ν) : OrderedMap κ ν :=
  ⟨m.entries.filter (fun e => p e.1 e.2), m.nodup.sublist (List.filter_sublist.map Prod.fst)⟩

/-- The map that a list of pairs describes; of several pairs with one key the last gives the value
and the first the place. -/
def ofList (pairs : List (κ × ν)) : OrderedMap κ ν :=
  pairs.foldl (fun m e => m.insert e.1 e.2) empty

/-! ## What each operation does to a look-up -/

@[simp] theorem get?_empty (k : κ) : (empty : OrderedMap κ ν).get? k = none := rfl

theorem lookup_entry (x : κ) (e : κ × ν) (rest : List (κ × ν)) :
    (e :: rest).lookup x = if x = e.1 then some e.2 else rest.lookup x := by
  obtain ⟨k, v⟩ := e
  rw [List.lookup_cons]
  by_cases hx : x = k
  · simp [hx]
  · rw [beq_eq_false_iff_ne.mpr hx, if_neg hx]

theorem lookup_put (k x : κ) (v : ν) (l : List (κ × ν)) :
    (put k v l).lookup x = if x = k then some v else l.lookup x := by
  induction l with
  | nil => exact lookup_entry x (k, v) []
  | cons e rest ih =>
    rw [put]
    by_cases he : e.1 = k
    · by_cases hx : x = k <;> simp [lookup_entry, he, hx]
    · rw [if_neg he, lookup_entry, lookup_entry, ih]
      by_cases hx : x = k
      · have hxe : x ≠ e.1 := fun h => he (h.symm.trans hx)
        simp [hx, hx ▸ hxe]
      · simp [hx]

/-- A key that was given a value has it; every other key keeps its own. -/
theorem get?_insert (m : OrderedMap κ ν) (k x : κ) (v : ν) :
    (m.insert k v).get? x = if x = k then some v else m.get? x :=
  lookup_put k x v m.entries

@[simp] theorem get?_insert_self (m : OrderedMap κ ν) (k : κ) (v : ν) :
    (m.insert k v).get? k = some v := by
  rw [get?_insert, if_pos rfl]

theorem get?_insert_ne (m : OrderedMap κ ν) {k x : κ} (h : x ≠ k) (v : ν) :
    (m.insert k v).get? x = m.get? x := by
  rw [get?_insert, if_neg h]

/-- A removed key has no value; every other key keeps its own. -/
theorem get?_erase (m : OrderedMap κ ν) (k x : κ) :
    (m.erase k).get? x = if x = k then none else m.get? x := by
  show (m.entries.filter _).lookup x = if x = k then none else m.entries.lookup x
  induction m.entries with
  | nil => simp
  | cons e rest ih =>
    by_cases he : e.1 = k
    · rw [List.filter_cons_of_neg (by simp [he]), ih, lookup_entry, he]
      by_cases hx : x = k <;> simp [hx]
    · rw [List.filter_cons_of_pos (by simp [he]), lookup_entry, lookup_entry, ih]
      by_cases hx : x = k
      · have hxe : x ≠ e.1 := fun h => he (h.symm.trans hx)
        simp [hx, hx ▸ hxe]
      · simp [hx]

@[simp] theorem get?_erase_self (m : OrderedMap κ ν) (k : κ) : (m.erase k).get? k = none := by
  rw [get?_erase, if_pos rfl]

/-- Of the keys that are kept, each keeps its value. -/
theorem get?_filter_key (m : OrderedMap κ ν) (p : κ → Bool) (x : κ) :
    (m.filter (fun k _ => p k)).get? x = if p x then m.get? x else none := by
  show (m.entries.filter (fun e => p e.1)).lookup x = if p x then m.entries.lookup x else none
  induction m.entries with
  | nil => simp
  | cons e rest ih =>
    by_cases he : p e.1 = true
    · rw [List.filter_cons_of_pos (p := fun e : κ × ν => p e.1) he, lookup_entry, lookup_entry, ih]
      by_cases hx : x = e.1
      · simp [hx, he]
      · simp [hx]
    · rw [List.filter_cons_of_neg (p := fun e : κ × ν => p e.1) he, ih, lookup_entry]
      by_cases hx : x = e.1
      · simp [hx, he]
      · simp [hx]

/-- The keys of a map are those with a value. -/
theorem mem_keys_iff (m : OrderedMap κ ν) (k : κ) : k ∈ m.keys ↔ ∃ v, m.get? k = some v := by
  show k ∈ m.entries.map Prod.fst ↔ ∃ v, m.entries.lookup k = some v
  induction m.entries with
  | nil => simp
  | cons e rest ih =>
    rw [List.map_cons, List.mem_cons, ih, lookup_entry]
    by_cases hk : k = e.1 <;> simp [hk]

end OrderedMap

end SourceIndex
