import SourceIndex.Proofs.CodeIndex

/-!
# An index from its history

Files are added to an index and removed from it, in any order and the same file any number of times.
What is left of such a history is told by the last change of each file (`LastOn`): a file is in the
index exactly if its last change added it, with the outline that it was added with then, and the
files stand in the order of those changes (`DeterminedBy`).  A change keeps this
(`DeterminedBy.change`), and so does a history (`DeterminedBy.run`).

No other index fits the same history (`DeterminedBy.unique`).  So **the history determines the
index, and what is there just before a file is removed is the answer to its removal**
(`history_determines`).
-/

namespace SourceIndex.CodeIndex

/-! ## Histories -/

/-- What can be done to an index. -/
inductive Change where
  | add (path : String) (o : Outline)
  | remove (path : String)

/-- The path of the file that is added or removed. -/
def Change.path : Change → String
  | add path _ => path
  | remove path => path

/-- The outline that the file has afterwards. -/
def Change.outline? : Change → Option Outline
  | add _ o => some o
  | remove _ => none

/-- The answer to a change, and the index that it leaves.  To an addition there is none. -/
def change (x : CodeIndex) : Change → Option Outline × CodeIndex
  | .add path o => (none, x.add path o)
  | .remove path => x.pop path

/-- The index that changes leave, one after another. -/
def run (x : CodeIndex) (changes : List Change) : CodeIndex :=
  changes.foldl (fun x c => (x.change c).2) x

/-- The answers to changes, one after another. -/
def answers (x : CodeIndex) : List Change → List (Option Outline)
  | [] => []
  | c :: rest => (x.change c).1 :: (x.change c).2.answers rest

variable {x y : CodeIndex} {history : List Change} {c d : Change} {path : String} {i j : Nat}

/-- The change of number `i` is the last that is about a path. -/
structure LastOn (history : List Change) (path : String) (i : Nat) (c : Change) : Prop where
  here : history[i]? = some c
  path_eq : c.path = path
  last : ∀ j d, i < j → history[j]? = some d → d.path ≠ path

theorem LastOn.lt_length (h : LastOn history path i c) : i < history.length :=
  (List.getElem?_eq_some_iff.mp h.here).1

theorem LastOn.unique (h : LastOn history path i c) (h' : LastOn history path j d) : i = j := by
  rcases Nat.lt_trichotomy i j with hlt | heq | hlt
  · exact absurd h'.path_eq (h.last j d hlt h'.here)
  · exact heq
  · exact absurd h.path_eq (h'.last i c hlt h.here)

/-- One more change is the last about its own path, and leaves the last about every other. -/
theorem lastOn_concat_iff :
    LastOn (history ++ [c]) path i d ↔
      if c.path = path then i = history.length ∧ d = c else LastOn history path i d := by
  have hnew : (history ++ [c])[history.length]? = some c := List.getElem?_concat_length
  have hold {k : Nat} (hk : k < history.length) : (history ++ [c])[k]? = history[k]? :=
    List.getElem?_append_left hk
  -- A place of the longer history is one of the shorter, or the new one.
  have hplace {k : Nat} {e : Change} (hk : (history ++ [c])[k]? = some e) :
      k < history.length ∨ k = history.length ∧ e = c := by
    obtain ⟨hlt, -⟩ := List.getElem?_eq_some_iff.mp hk
    rw [List.length_append, List.length_singleton] at hlt
    rcases Nat.lt_or_eq_of_le (Nat.le_of_lt_succ hlt) with hlt | rfl
    · exact Or.inl hlt
    · exact Or.inr ⟨rfl, (Option.some.inj (hnew.symm.trans hk)).symm⟩
  by_cases hpath : c.path = path
  · rw [if_pos hpath]
    constructor
    · intro h
      rcases hplace h.here with hlt | hlast
      · exact absurd hpath (h.last history.length c hlt hnew)
      · exact hlast
    · rintro ⟨rfl, rfl⟩
      refine ⟨hnew, hpath, ?_⟩
      intro k e hk he
      rcases hplace he with hlt | ⟨heq, -⟩ <;> omega
  · rw [if_neg hpath]
    constructor
    · intro h
      rcases hplace h.here with hlt | ⟨-, rfl⟩
      · refine ⟨(hold hlt).symm.trans h.here, h.path_eq, ?_⟩
        intro k e hk he
        have hlt' := (List.getElem?_eq_some_iff.mp he).1
        exact h.last k e hk ((hold hlt').trans he)
      · exact absurd h.path_eq hpath
    · intro h
      refine ⟨(hold h.lt_length).trans h.here, h.path_eq, ?_⟩
      intro k e hk he
      rcases hplace he with hlt | ⟨-, rfl⟩
      · exact h.last k e hk ((hold hlt).symm.trans he)
      · exact hpath

theorem lastOn_concat_self (history : List Change) (c : Change) :
    LastOn (history ++ [c]) c.path history.length c := by
  rw [lastOn_concat_iff, if_pos rfl]
  exact ⟨rfl, rfl⟩

theorem LastOn.concat (h : LastOn history path i d) (hne : path ≠ c.path) :
    LastOn (history ++ [c]) path i d := by
  rw [lastOn_concat_iff, if_neg hne.symm]
  exact h

/-! ## What one change does -/

theorem pop_fst (x : CodeIndex) (path : String) : (x.pop path).1 = x.get? path := by
  unfold pop get?
  split
  · next h => exact h.symm
  · next h => exact h.symm

theorem files_remove (x : CodeIndex) (path : String) :
    (x.remove path).files = x.files.erase path := by
  cases h : x.get? path with
  | none => rw [remove_of_none h, OrderedMap.erase_of_none h]
  | some old => rw [remove_of_some h]

theorem entries_add (x : CodeIndex) (path : String) (o : Outline) :
    (x.add path o).files.entries = (x.files.erase path).entries ++ [(path, o)] := by
  have hnone : (x.remove path).files.get? path = none := by
    rw [files_remove]
    exact OrderedMap.get?_erase_self x.files path
  show ((x.remove path).files.insert path o).entries = _
  rw [OrderedMap.entries_insert_of_none hnone, files_remove]

theorem get?_change (x : CodeIndex) (c : Change) (path : String) :
    (x.change c).2.get? path = if path = c.path then c.outline? else x.get? path := by
  cases c with
  | add there o => exact get?_add x there path o
  | remove there => exact get?_remove x there path

/-- A change takes what its file had out of the order, and puts what the file has now at the end. -/
theorem entries_change (x : CodeIndex) (c : Change) :
    (x.change c).2.files.entries
      = (x.files.erase c.path).entries ++ (c.outline?.map (c.path, ·)).toList := by
  cases c with
  | add path o => exact entries_add x path o
  | remove path =>
    show (x.remove path).files.entries = _ ++ []
    rw [files_remove, List.append_nil]
    rfl

theorem Balanced.change (h : x.Balanced) (c : Change) : (x.change c).2.Balanced := by
  cases c with
  | add path o => exact h.add path o
  | remove path => exact h.remove path

/-! ## The index that a history leaves -/

/-- The last change about the first file comes before the last about the second, and they added the
two with the given outlines. -/
def AddedBefore (history : List Change) (e f : String × Outline) : Prop :=
  ∃ i j, LastOn history e.1 i (.add e.1 e.2) ∧ LastOn history f.1 j (.add f.1 f.2) ∧ i < j

/-- The index is what the last changes of a history tell. -/
structure DeterminedBy (history : List Change) (x : CodeIndex) : Prop where
  get?_iff : ∀ path o, x.get? path = some o ↔ ∃ i, LastOn history path i (.add path o)
  ordered : x.files.entries.Pairwise (AddedBefore history)
  balanced : x.Balanced

theorem determinedBy_empty : DeterminedBy [] empty where
  get?_iff := by
    intro path o
    constructor
    · intro h
      cases h
    · rintro ⟨i, h⟩
      exact absurd h.lt_length (Nat.not_lt_zero i)
  ordered := List.Pairwise.nil
  balanced := balanced_empty

theorem DeterminedBy.get?_change_iff (h : DeterminedBy history x) (c : Change) (path : String)
    (o : Outline) :
    (x.change c).2.get? path = some o ↔ ∃ i, LastOn (history ++ [c]) path i (.add path o) := by
  simp only [get?_change, lastOn_concat_iff, @eq_comm _ path]
  by_cases hpath : c.path = path
  · cases c with
    | add there added =>
      obtain rfl : there = path := hpath
      simp [Change.path, Change.outline?, eq_comm]
    | remove there => simp [hpath, Change.outline?]
  · simp only [if_neg hpath]
    exact h.get?_iff path o

/-- The files that a change is not about stay in order. -/
theorem DeterminedBy.pairwise_erase (h : DeterminedBy history x) (c : Change) :
    (x.files.erase c.path).entries.Pairwise (AddedBefore (history ++ [c])) := by
  refine (h.ordered.sublist List.filter_sublist).imp_of_mem ?_
  rintro e f he hf ⟨i, j, hi, hj, hlt⟩
  have hne {g : String × Outline} (hg : g ∈ (x.files.erase c.path).entries) : g.1 ≠ c.path := by
    simpa using (List.mem_filter.mp hg).2
  exact ⟨i, j, hi.concat (hne he), hj.concat (hne hf), hlt⟩

theorem DeterminedBy.ordered_change (h : DeterminedBy history x) (c : Change) :
    (x.change c).2.files.entries.Pairwise (AddedBefore (history ++ [c])) := by
  rw [entries_change]
  refine List.pairwise_append.mpr ⟨h.pairwise_erase c, ?_, ?_⟩
  · cases c.outline? with
    | none => exact List.Pairwise.nil
    | some o => exact List.pairwise_singleton _ _
  · rintro ⟨there, o⟩ he f hf
    cases c with
    | remove path => cases hf
    | add path added =>
      obtain rfl := List.mem_singleton.mp hf
      have hmem := List.mem_filter.mp he
      obtain ⟨i, hi⟩ := (h.get?_iff there o).mp (OrderedMap.mem_entries_iff.mp hmem.1)
      -- What is added now comes after all that was added before.
      exact ⟨i, history.length, hi.concat (by simpa using hmem.2), lastOn_concat_self history _,
        hi.lt_length⟩

/-- **A change keeps an index what its history tells.** -/
theorem DeterminedBy.change (h : DeterminedBy history x) (c : Change) :
    DeterminedBy (history ++ [c]) (x.change c).2 :=
  ⟨h.get?_change_iff c, h.ordered_change c, h.balanced.change c⟩

/-- **So does a whole history**, however long it is. -/
theorem DeterminedBy.run (h : DeterminedBy history x) (changes : List Change) :
    DeterminedBy (history ++ changes) (x.run changes) := by
  induction changes generalizing history x with
  | nil => rw [List.append_nil]; exact h
  | cons c rest ih =>
    rw [← List.singleton_append, ← List.append_assoc]
    exact ih (h.change c)

theorem AddedBefore.antisymm {e f : String × Outline} (h : AddedBefore history e f)
    (h' : AddedBefore history f e) : e = f := by
  obtain ⟨i, j, hi, hj, hlt⟩ := h
  obtain ⟨j', i', hj', hi', hlt'⟩ := h'
  have hsame := hi.unique hi'
  have hsame' := hj.unique hj'
  omega

/-- No two indexes fit one history. -/
theorem DeterminedBy.unique (hx : DeterminedBy history x) (hy : DeterminedBy history y) :
    x = y := by
  have hget : ∀ path, x.get? path = y.get? path := by
    intro path
    refine Option.ext ?_
    intro o
    rw [hx.get?_iff, hy.get?_iff]
  have hentries : x.files.entries = y.files.entries :=
    (OrderedMap.perm_of_get?_eq hget).eq_of_pairwise (fun _ _ _ _ => AddedBefore.antisymm)
      hx.ordered hy.ordered
  obtain ⟨hfunctions, hclasses⟩ := totals_eq_of_get?_eq hx.balanced hy.balanced hget
  obtain ⟨⟨entries, _⟩, functions, classes⟩ := x
  obtain ⟨⟨entries', _⟩, functions', classes'⟩ := y
  obtain rfl : entries = entries' := hentries
  obtain rfl : functions = functions' := hfunctions
  obtain rfl : classes = classes' := hclasses
  rfl

/-! ## The answers on the way -/

/-- A change is answered by the index that the changes before it have left. -/
theorem getElem?_answers (x : CodeIndex) (h : history[i]? = some c) :
    (x.answers history)[i]? = some ((x.run (history.take i)).change c).1 := by
  induction history generalizing x i with
  | nil => cases h
  | cons first rest ih =>
    cases i with
    | zero =>
      obtain rfl : first = c := Option.some.inj h
      rfl
    | succ i => exact ih (x.change first).2 h

/-- **The history determines the index.**  A file is there exactly if its last change added it, with
the outline of that change; the files stand in the order of those changes; the totals are those of
the files that are there; and no other index is like that.  A removal is answered with what was
there just before. -/
theorem history_determines (history : List Change) :
    DeterminedBy history (empty.run history) ∧
      (∀ x, DeterminedBy history x → x = empty.run history) ∧
      ∀ i path, history[i]? = some (.remove path) →
        (empty.answers history)[i]? = some ((empty.run (history.take i)).get? path) := by
  have hrun : DeterminedBy history (empty.run history) := determinedBy_empty.run history
  refine ⟨hrun, fun x hx => hx.unique hrun, ?_⟩
  intro i path h
  rw [getElem?_answers empty h]
  exact congrArg some (pop_fst _ path)

/-- An outline with a number of classes. -/
def withClasses (n : Nat) : Outline :=
  { fileName := "", language := "python", classes := List.replicate n "C" }

/-- Two files are added, then the first again; the second is removed twice, and comes back. -/
def movedFiles : List Change :=
  [.add "/a" (withClasses 1), .add "/b" (withClasses 2), .add "/a" (withClasses 4), .remove "/b",
    .remove "/b", .add "/b" (withClasses 8)]

/-- The first file stands before the second again, and only the first removal had an answer. -/
theorem history_determines_movedFiles :
    movedFiles[3]? = some (.remove "/b") ∧
      (empty.answers movedFiles)[3]? = some ((empty.run (movedFiles.take 3)).get? "/b") ∧
      (empty.answers movedFiles)[4]? = some ((empty.run (movedFiles.take 4)).get? "/b") ∧
      (empty.run (movedFiles.take 3)).get? "/b" = some (withClasses 2) ∧
      (empty.run (movedFiles.take 4)).get? "/b" = none ∧
      DeterminedBy movedFiles (empty.run movedFiles) ∧
      (empty.run movedFiles).files.entries = [("/a", withClasses 4), ("/b", withClasses 8)] ∧
      (empty.run movedFiles).totalClasses = 12 := by
  obtain ⟨hdetermined, -, hanswers⟩ := history_determines movedFiles
  exact ⟨rfl, hanswers 3 "/b" rfl, hanswers 4 "/b" rfl, by decide +kernel, by decide +kernel,
    hdetermined, by decide +kernel, by decide +kernel⟩

end SourceIndex.CodeIndex
