import SourceIndex.Proofs.Workspace.Entries
import SourceIndex.Workspace.Scan

/-!
# What a scan comes to

However many workers there are, and in whatever order they finish, the results that a scan takes are
those of the files before the first at which it is cancelled (`Scan.value_sequential`,
`Scan.value_parallel`).  So **a scan is one loop over a beginning of the list of discovered files**
(`value_scan`), and what it leaves is proved by going through that loop.

What is done on the way is what is done for these files (`Scan.events_sequential`); several workers
may do some of the later files besides (`Scan.events_parallel`).
-/

namespace SourceIndex

namespace Scan

variable {ρ : Type} {job : SourceFile → Traced ρ} {cancelled : Nat → Bool}

/-- How many of `n` files, from number `i` on, are taken before the scan is cancelled. -/
def taken (cancelled : Nat → Bool) : Nat → Nat → Nat
  | _, 0 => 0
  | i, n + 1 => if cancelled i then 0 else taken cancelled (i + 1) n + 1

theorem taken_of_uncancelled (h : ∀ i, cancelled i = false) (i n : Nat) :
    taken cancelled i n = n := by
  induction n generalizing i with
  | zero => rfl
  | succ n ih => rw [taken, if_neg (by simp [h]), ih]

theorem taken_le (cancelled : Nat → Bool) (i n : Nat) : taken cancelled i n ≤ n := by
  induction n generalizing i with
  | zero => exact Nat.le_refl 0
  | succ n ih =>
    rw [taken]
    split
    · exact Nat.zero_le _
    · exact Nat.succ_le_succ (ih (i + 1))

/-- The files that are taken end where the scan is first found cancelled. -/
theorem taken_eq_iff {i n k : Nat} (hk : k ≤ n) :
    taken cancelled i n = k ↔
      (∀ j < k, cancelled (i + j) = false) ∧ (k < n → cancelled (i + k) = true) := by
  induction n generalizing i k with
  | zero =>
    obtain rfl := Nat.le_zero.mp hk
    simp [taken]
  | succ n ih =>
    rw [taken]
    cases hc : cancelled i with
    | true =>
      cases k with
      | zero => simp [hc]
      | succ k =>
        constructor
        · intro h
          cases h
        · rintro ⟨h, -⟩
          have hi := h 0 (Nat.succ_pos k)
          rw [Nat.add_zero, hc] at hi
          cases hi
    | false =>
      cases k with
      | zero => simp [hc]
      | succ k =>
        have hshift (j : Nat) : i + 1 + j = i + (j + 1) := by omega
        have hfirst : (∀ j < k + 1, cancelled (i + j) = false) ↔
            ∀ j < k, cancelled (i + (j + 1)) = false := by
          constructor
          · intro h j hj
            exact h (j + 1) (Nat.succ_lt_succ hj)
          · intro h j hj
            cases j with
            | zero => exact hc
            | succ j => exact h j (Nat.lt_of_succ_lt_succ hj)
        have hrest := ih (i := i + 1) (Nat.le_of_succ_le_succ hk)
        simp only [hshift] at hrest
        rw [hfirst, Nat.succ_lt_succ_iff, ← hrest, if_neg Bool.false_ne_true]
        exact Nat.succ_inj

/-- One worker takes the files one by one until the scan is cancelled. -/
theorem value_sequential (i : Nat) (files : List SourceFile) :
    (sequential job cancelled i files).value
      = (files.take (taken cancelled i files.length)).map (fun f => (job f).value) := by
  induction files generalizing i with
  | nil => rfl
  | cons file rest ih =>
    rw [sequential, List.length_cons, taken]
    split
    · rfl
    · simp only [Traced.value_bind, Traced.value_pure, List.take_succ_cons, List.map_cons, ih]

/-- What workers have done is right: a result under a number is that of the file with the number. -/
def Done (job : SourceFile → Traced ρ) (files : List SourceFile) (done : OrderedMap Nat ρ) : Prop :=
  ∀ i result, done.get? i = some result → ∃ file, files[i]? = some file ∧ result = (job file).value

theorem Done.insert {files : List SourceFile} {done : OrderedMap Nat ρ} {i : Nat}
    {file : SourceFile} (h : Done job files done) (hf : files[i]? = some file) :
    Done job files (done.insert i (job file).value) := by
  intro j result hr
  rw [OrderedMap.get?_insert] at hr
  split at hr
  · next he => exact ⟨file, by rw [he]; exact hf, (Option.some.inj hr).symm⟩
  · exact h j result hr

/-- Workers do right by the files, whatever they have been given to do and in whatever order. -/
theorem done_work {files : List SourceFile} (order : List Nat) {done : OrderedMap Nat ρ}
    (h : Done job files done) : Done job files (work job files order done).value := by
  induction order generalizing done with
  | nil => exact h
  | cons i rest ih =>
    rw [work]
    split
    · next file _ hf => exact ih (h.insert hf)
    · exact ih h

/-- The results that workers have are those that the files would give now. -/
theorem value_await {done : OrderedMap Nat ρ} (before files : List SourceFile)
    (h : Done job (before ++ files) done) :
    (await job done cancelled before.length files).value
      = (files.take (taken cancelled before.length files.length)).map (fun f => (job f).value) := by
  induction files generalizing before with
  | nil => rfl
  | cons file rest ih =>
    have hrest := ih (before ++ [file]) (by simpa using h)
    rw [List.length_append, List.length_singleton] at hrest
    rw [await, List.length_cons, taken]
    split
    · rfl
    · rw [List.take_succ_cons, List.map_cons, ← hrest]
      split
      · next result hr =>
        obtain ⟨found, hf, rfl⟩ := h _ result hr
        rw [List.getElem?_append_right (Nat.le_refl _), Nat.sub_self] at hf
        obtain rfl := Option.some.inj hf
        rfl
      · rfl

/-- **Several workers come to what one would**, in whatever order they finish. -/
theorem value_parallel (conditions : Interleaving) (files : List SourceFile) :
    (parallel job conditions files).value
      = (files.take (taken conditions.cancelled 0 files.length)).map (fun f => (job f).value) := by
  have hdone : Done job ([] ++ files)
      (work job files (conditions.order files.length) OrderedMap.empty).value := by
    refine done_work _ ?_
    intro i result hr
    cases hr
  exact value_await [] files hdone

/-! ## What is done on the way -/

/-- What is done for the file with a number. -/
def eventsOf (job : SourceFile → Traced ρ) (files : List SourceFile) (i : Nat) : List Event :=
  match files[i]? with
  | some file => (job file).events
  | none => []

theorem flatMap_eventsOf (files : List SourceFile) (numbers : List Nat) :
    numbers.flatMap (eventsOf job files)
      = (numbers.filterMap (files[·]?)).flatMap (fun f => (job f).events) := by
  induction numbers with
  | nil => rfl
  | cons i rest ih =>
    rw [List.flatMap_cons, ih, eventsOf]
    cases hf : files[i]? with
    | none => rw [List.filterMap_cons_none hf, List.nil_append]
    | some file => rw [List.filterMap_cons_some hf, List.flatMap_cons]

/-- The files with the numbers from `k` on stand together. -/
theorem filterMap_getElem?_range' (files : List SourceFile) (k n : Nat) :
    (List.range' k n).filterMap (files[·]?) = (files.drop k).take n := by
  induction n generalizing k with
  | zero => rfl
  | succ n ih =>
    rw [List.range'_succ]
    by_cases hk : k < files.length
    · rw [List.filterMap_cons_some (List.getElem?_eq_getElem hk), ih, List.drop_eq_getElem_cons hk,
        List.take_succ_cons]
    · have hnone : files[k]? = none := List.getElem?_eq_none (Nat.le_of_not_lt hk)
      have hdrop (j : Nat) (hj : k ≤ j) : files.drop j = [] := List.drop_eq_nil_of_le (by omega)
      rw [List.filterMap_cons_none hnone, ih, hdrop k (Nat.le_refl k), hdrop (k + 1) (by omega),
        List.take_nil, List.take_nil]

theorem events_sequential (i : Nat) (files : List SourceFile) :
    (sequential job cancelled i files).events
      = (files.take (taken cancelled i files.length)).flatMap (fun f => (job f).events) := by
  induction files generalizing i with
  | nil => rfl
  | cons file rest ih =>
    rw [sequential, List.length_cons, taken]
    split
    · rfl
    · simp only [Traced.events_bind, Traced.events_pure, List.append_nil, List.take_succ_cons,
        List.flatMap_cons, ih]

/-- Workers do each file once at most, and nothing but files. -/
theorem events_work (job : SourceFile → Traced ρ) (files : List SourceFile) (order : List Nat)
    (done : OrderedMap Nat ρ) :
    ∃ new, (work job files order done).value.keys = done.keys ++ new ∧
      (work job files order done).events = new.flatMap (eventsOf job files) ∧
      ∀ i ∈ new, i < files.length := by
  induction order generalizing done with
  | nil => exact ⟨[], (List.append_nil _).symm, rfl, fun i hi => nomatch hi⟩
  | cons i rest ih =>
    rw [work]
    split
    · next file hi hf =>
      obtain ⟨new, hkeys, hevents, hlt⟩ := ih (done.insert i (job file).value)
      have hhere : eventsOf job files i = (job file).events := by rw [eventsOf, hf]
      refine ⟨i :: new, ?_, ?_, ?_⟩
      · rw [Traced.value_bind, hkeys, OrderedMap.keys_insert_of_none hi, List.append_assoc,
          List.singleton_append]
      · rw [Traced.events_bind, hevents, List.flatMap_cons, hhere]
      · intro j hj
        rcases List.mem_cons.mp hj with rfl | hj
        · exact (List.getElem?_eq_some_iff.mp hf).1
        · exact hlt j hj
    · exact ih done

/-- Files that are each given to the workers once are finished in the order of giving. -/
theorem keys_work {files : List SourceFile} {order : List Nat} {done : OrderedMap Nat ρ}
    (hlt : ∀ i ∈ order, i < files.length) (hnodup : (done.keys ++ order).Nodup) :
    (work job files order done).value.keys = done.keys ++ order := by
  induction order generalizing done with
  | nil => exact (List.append_nil _).symm
  | cons i rest ih =>
    have hi : done.get? i = none := by
      refine OrderedMap.not_mem_keys_iff.mp ?_
      intro hk
      exact (List.nodup_append.mp hnodup).2.2 i hk i List.mem_cons_self rfl
    obtain ⟨file, hf⟩ : ∃ file, files[i]? = some file :=
      ⟨_, List.getElem?_eq_getElem (hlt i List.mem_cons_self)⟩
    have hkeys := OrderedMap.keys_insert_of_none hi (job file).value
    rw [List.append_cons, ← hkeys] at hnodup ⊢
    simp only [work, hi, hf, Traced.value_bind]
    exact ih (fun j hj => hlt j (List.mem_cons_of_mem i hj)) hnodup

/-- A file that no worker got to is done when its result is waited for. -/
theorem events_await (job : SourceFile → Traced ρ) (done : OrderedMap Nat ρ)
    (cancelled : Nat → Bool) (before files : List SourceFile) :
    (await job done cancelled before.length files).events
      = ((List.range' before.length (taken cancelled before.length files.length)).filter
          (fun i => (done.get? i).isNone)).flatMap (eventsOf job (before ++ files)) := by
  induction files generalizing before with
  | nil => rfl
  | cons file rest ih =>
    have hrest := ih (before ++ [file])
    have hhere : eventsOf job (before ++ file :: rest) before.length = (job file).events := by
      rw [eventsOf, List.getElem?_append_right (Nat.le_refl _), Nat.sub_self]
      rfl
    rw [List.length_append, List.length_singleton, List.append_assoc, List.singleton_append]
      at hrest
    rw [await, List.length_cons, taken]
    split
    · rfl
    · cases hd : done.get? before.length with
      | some result =>
        simp only [Traced.events_bind, Traced.events_pure, List.append_nil, List.nil_append, hrest,
          List.range'_succ, List.filter_cons, hd, Option.isNone_some, Bool.false_eq_true, if_false]
      | none =>
        simp only [Traced.events_bind, Traced.events_pure, List.append_nil, hrest,
          List.range'_succ, List.filter_cons, hd, Option.isNone_none, if_true, List.flatMap_cons,
          hhere]

/-- What the workers got to is done first, and then what they did not. -/
theorem events_parallel_eq (conditions : Interleaving) (files : List SourceFile)
    {done : OrderedMap Nat ρ}
    (hd : (work job files (conditions.order files.length) OrderedMap.empty).value = done) :
    (parallel job conditions files).events
      = (done.keys ++ (List.range (taken conditions.cancelled 0 files.length)).filter
          (fun i => (done.get? i).isNone)).flatMap (eventsOf job files) := by
  obtain ⟨new, hkeys, hevents, -⟩ :=
    events_work job files (conditions.order files.length) OrderedMap.empty
  rw [hd] at hkeys
  have hnew : new = done.keys := hkeys.symm
  have hawait := events_await job done conditions.cancelled [] files
  rw [List.length_nil, ← List.range_eq_range', List.nil_append] at hawait
  unfold parallel
  rw [Traced.events_bind, hevents, hd, hawait, hnew, List.flatMap_append]

/-- What the workers got to, and the first files that they did not get to, are the first files and
some later ones. -/
theorem keys_append_missing_perm {done : OrderedMap Nat ρ} {k n : Nat}
    (hlt : ∀ i ∈ done.keys, i < n) (hk : k ≤ n) :
    (done.keys ++ (List.range k).filter (fun i => (done.get? i).isNone)).Perm
      (List.range k ++ (List.range' k (n - k)).filter (fun i => (done.get? i).isSome)) := by
  have hnodup : done.keys.Nodup := done.nodup
  -- The two lists have the same members, each once.
  refine (List.perm_ext_iff_of_nodup ?_ ?_).mpr ?_
  · refine List.nodup_append.mpr ⟨hnodup, List.nodup_range.filter _, ?_⟩
    rintro i hi j hj rfl
    have hnone : done.get? i = none := Option.isNone_iff_eq_none.mp (List.mem_filter.mp hj).2
    exact OrderedMap.not_mem_keys_iff.mpr hnone hi
  · refine List.nodup_append.mpr ⟨List.nodup_range, List.Pairwise.filter _ List.nodup_range', ?_⟩
    rintro i hi j hj rfl
    have hbefore := List.mem_range.mp hi
    have hafter := List.mem_range'_1.mp (List.mem_filter.mp hj).1
    omega
  · intro i
    have hmem : i ∈ done.keys ↔ ∃ result, done.get? i = some result := done.mem_keys_iff i
    simp only [List.mem_append, List.mem_filter, List.mem_range, List.mem_range'_1,
      Option.isNone_iff_eq_none, Option.isSome_iff_exists, ← hmem, ← OrderedMap.not_mem_keys_iff]
    by_cases hi : i ∈ done.keys
    · have hin := hlt i hi
      simp only [hi, not_true_eq_false, and_false, or_false, and_true, true_iff]
      omega
    · simp [hi]

/-- **What several workers do**: each file whose result is taken is done once, and perhaps some of
the files that come after them. -/
theorem events_parallel (job : SourceFile → Traced ρ) (conditions : Interleaving)
    (files : List SourceFile) :
    ∃ others : List SourceFile,
      others.Sublist (files.drop (taken conditions.cancelled 0 files.length)) ∧
      (parallel job conditions files).events.Perm
        ((files.take (taken conditions.cancelled 0 files.length) ++ others).flatMap
          (fun f => (job f).events)) := by
  obtain ⟨new, hkeys, -, hlt⟩ :=
    events_work job files (conditions.order files.length) OrderedMap.empty
  generalize hd : (work job files (conditions.order files.length) OrderedMap.empty).value = done
    at hkeys
  have hnew : new = done.keys := hkeys.symm
  rw [events_parallel_eq conditions files hd]
  have hle := taken_le conditions.cancelled 0 files.length
  generalize taken conditions.cancelled 0 files.length = k at hle ⊢
  have hnumbers := (keys_append_missing_perm (hnew ▸ hlt) hle).flatMap_right (eventsOf job files)
  have hfirst : (List.range k).filterMap (files[·]?) = files.take k := by
    rw [List.range_eq_range', filterMap_getElem?_range', List.drop_zero]
  have hlater : (List.range' k (files.length - k)).filterMap (files[·]?) = files.drop k := by
    rw [filterMap_getElem?_range', ← List.length_drop, List.take_length]
  rw [flatMap_eventsOf files (List.range k ++ _), List.filterMap_append, hfirst] at hnumbers
  refine ⟨_, ?_, hnumbers⟩
  rw [← hlater]
  exact List.filter_sublist.filterMap _

end Scan

namespace Workspace

variable {w : Workspace} {pack : GrammarPack} {fs : FileSystem}

/-! ## One file -/

/-- An attempt depends on a workspace only through its configuration and its registry, and on a file
system only through what is read from the path. -/
theorem attempt_congr {v : Workspace} {fs' : FileSystem} {path : String}
    (hc : v.config = w.config) (hr : v.registry = w.registry)
    (hread : fs'.readSource path = fs.readSource path) (language : String) :
    v.attempt pack fs' path language = w.attempt pack fs path language := by
  unfold attempt analyzeSource analyzer
  rw [hc, hr, hread]

/-- Attempting a file gives the outline of its content, with the digest of its content. -/
theorem value_attempt_eq_some {path language : String} {analysed : Analysed} :
    (w.attempt pack fs path language).value = some analysed ↔
      ∃ content, fs.Gives path content ∧
        (w.analyzer pack).outline content path language = .ok analysed.outline ∧
        analysed.digest = Sha256.hexDigest content := by
  unfold attempt
  cases hr : fs.readSource path with
  | error e =>
    constructor
    · intro h
      cases h
    · rintro ⟨content, hg, -⟩
      rw [hg.readSource] at hr
      cases hr
  | ok source =>
    obtain ⟨content, hg, rfl⟩ := FileSystem.readSource_eq_ok hr
    simp only [Traced.value_bind, value_analyzeSource]
    cases ho : (w.analyzer pack).outline content path language with
    | error e =>
      constructor
      · intro h
        cases h
      · rintro ⟨found, hf, hof, -⟩
        rw [hf.unique hg, ho] at hof
        cases hof
    | ok o =>
      constructor
      · intro h
        obtain rfl := Option.some.inj h
        exact ⟨content, hg, ho, rfl⟩
      · rintro ⟨found, hf, hof, hd⟩
        obtain rfl := hf.unique hg
        rw [ho] at hof
        obtain ⟨outline, digest⟩ := analysed
        obtain rfl := Except.ok.inj hof
        obtain rfl := hd
        rfl

theorem Holds.record {there : String} {kept : Option Analysed} (h : w.Holds there kept)
    (file : SourceFile) (result : Option Analysed) :
    (w.record file result).Holds there (if there = file.path then result.or kept else kept) := by
  cases result with
  | none =>
    rw [Option.none_or, ite_self]
    exact h
  | some analysed => exact h.store file.path analysed

/-! ## The loop -/

/-- Takes files into a workspace one by one, each with the result of attempting it. -/
def takeIn (w : Workspace) (pack : GrammarPack) (fs : FileSystem) (v : Workspace)
    (files : List SourceFile) : Workspace :=
  files.foldl (fun v f => v.record f (w.attempt pack fs f.path f.language).value) v

/-- The loop leaves for a path the result of the files with that path, if all of these have the same
result; a failure, and a loop that comes to no such file, leaves what was held before. -/
theorem Holds.takeIn {v : Workspace} {path : String} {kept : Option Analysed}
    {files : List SourceFile} (h : v.Holds path kept) (result : Option Analysed)
    (hall : ∀ file ∈ files, file.path = path →
      (w.attempt pack fs file.path file.language).value = result) :
    (w.takeIn pack fs v files).Holds path
      (if ∃ file ∈ files, file.path = path then result.or kept else kept) := by
  induction files generalizing v kept with
  | nil => simpa [Workspace.takeIn] using h
  | cons file rest ih =>
    have hnext := h.record file (w.attempt pack fs file.path file.language).value
    have hlater := fun f hf => hall f (List.mem_cons_of_mem file hf)
    by_cases hp : file.path = path
    · -- A later file with the same path brings the same result once more.
      have hagain : result.or (result.or kept) = result.or kept := by
        rw [← Option.or_assoc, Option.or_self]
      have hkept : (if path = file.path
          then (w.attempt pack fs file.path file.language).value.or kept else kept)
            = result.or kept := by
        rw [if_pos hp.symm, hall file List.mem_cons_self hp]
      have hrest := ih (hkept ▸ hnext) hlater
      rw [hagain, ite_self] at hrest
      rw [if_pos ⟨file, List.mem_cons_self, hp⟩]
      exact hrest
    · rw [if_neg (fun he => hp he.symm)] at hnext
      simp only [List.mem_cons, exists_eq_or_imp, hp, false_or]
      exact ih hnext hlater

theorem recordAll_take (v : Workspace) (g : SourceFile → Option Analysed) (files : List SourceFile)
    (k : Nat) :
    v.recordAll files ((files.take k).map g)
      = (files.take k).foldl (fun v f => v.record f (g f)) v := by
  unfold recordAll
  induction files generalizing v k with
  | nil => simp
  | cons file rest ih =>
    cases k with
    | zero => simp
    | succ k => simpa using ih (v.record file (g file)) k

theorem value_results (conditions : Interleaving) (files : List SourceFile) :
    (w.results pack fs conditions files).value
      = (files.take (Scan.taken conditions.cancelled 0 files.length)).map
          (fun f => (w.attempt pack fs f.path f.language).value) := by
  unfold results
  split
  · exact Scan.value_parallel conditions files
  · exact Scan.value_sequential 0 files

/-- **A scan takes in the discovered files** that come before it is cancelled; it starts without
entries, and stays so if nothing can be discovered. -/
theorem value_scan [PatternEngine] (w : Workspace) (pack : GrammarPack) (fs : FileSystem)
    (conditions : Interleaving) :
    (w.scan pack fs conditions).value.2 = match (discover fs w.config).value with
      | .error _ => w.reset
      | .ok files =>
        (w.takeIn pack fs { w.reset with stats := { seen := files.length } }
          (files.take (Scan.taken conditions.cancelled 0 files.length))).noteCancelled := by
  unfold scan
  simp only [Traced.value_bind]
  cases hd : (discover fs w.config).value with
  | error e =>
    rw [show (discover fs w.reset.config).value = .error e from hd]
    cases e <;> rfl
  | ok files =>
    rw [show (discover fs w.reset.config).value = .ok files from hd]
    simp only [scanFiles, Traced.value_bind, Traced.value_pure, value_results, recordAll_take]
    rfl

end Workspace

end SourceIndex
