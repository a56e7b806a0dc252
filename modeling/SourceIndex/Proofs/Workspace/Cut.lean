import SourceIndex.Proofs.Reports
import SourceIndex.Proofs.Workspace.Workers

/-!
# A scan that is cut short

A scan that is cancelled has taken the results of the first so many files.  What it has made of them
is stated by going through its loop: after each file, the index, the digests and the counts *cover*
the files so far (`Covers.record`), and so they do after any number of files (`Covers.takeIn`).

**Whenever a scan is cancelled, it leaves what a beginning of the discovered files comes to**
(`scan_cut`), whoever does the work.  A file that fails has no entry, is counted and reported, and
does nothing to any other file.
-/

namespace SourceIndex

namespace Workspace

variable {w v : Workspace} {pack : GrammarPack} {fs : FileSystem}
variable {outcome : SourceFile → Option Analysed} {files : List SourceFile} {file : SourceFile}

/-! ## What the loop makes of its files -/

/-- The entries and the counts are those of the given files, each with its own outcome. -/
structure Covers (outcome : SourceFile → Option Analysed) (files : List SourceFile)
    (v : Workspace) : Prop where
  index : v.index.files.entries
    = files.filterMap (fun f => (outcome f).map (fun a => (f.path, a.outline)))
  digests : v.digests.entries
    = files.filterMap (fun f => (outcome f).map (fun a => (f.path, a.digest)))
  indexed : v.stats.indexed = files.countP (fun f => (outcome f).isSome)
  skipped : v.stats.skipped = files.countP (fun f => (outcome f).isNone)
  byLanguage : ∀ language n, v.stats.byLanguage.get? language = some n ↔
    0 < n ∧ n = files.countP (fun f => (outcome f).isSome && f.language == language)
  total : v.stats.byLanguage.total id = v.stats.indexed

/-- A path that is not among those of the files has no entry. -/
theorem Covers.absent {path : String} (h : Covers outcome files v)
    (hp : path ∉ files.map (·.path)) :
    v.index.get? path = none ∧ v.digests.get? path = none := by
  have hnot {α : Type} (g : Analysed → α) : path ∉
      (files.filterMap (fun f => (outcome f).map (fun a => (f.path, g a)))).map Prod.fst := by
    intro hm
    obtain ⟨e, he, rfl⟩ := List.mem_map.mp hm
    obtain ⟨f, hf, ha⟩ := List.mem_filterMap.mp he
    obtain ⟨a, -, rfl⟩ := Option.map_eq_some_iff.mp ha
    exact hp (List.mem_map.mpr ⟨f, hf, rfl⟩)
  constructor
  · refine OrderedMap.not_mem_keys_iff.mp ?_
    rw [OrderedMap.keys, h.index]
    exact hnot _
  · refine OrderedMap.not_mem_keys_iff.mp ?_
    rw [OrderedMap.keys, h.digests]
    exact hnot _

theorem Covers.getD_byLanguage (h : Covers outcome files v) (language : String) :
    (v.stats.byLanguage.get? language).getD 0
      = files.countP (fun f => (outcome f).isSome && f.language == language) := by
  cases hn : v.stats.byLanguage.get? language with
  | some n => exact ((h.byLanguage language n).mp hn).2
  | none =>
    refine Nat.eq_zero_of_not_pos ?_ |>.symm
    intro hpos
    rw [(h.byLanguage language _).mpr ⟨hpos, rfl⟩] at hn
    cases hn

/-- A file without an outcome is counted, and does nothing else. -/
theorem Covers.record_none (h : Covers outcome files v) (ho : outcome file = none) :
    Covers outcome (files ++ [file]) (v.record file none) where
  index := by simp [record, h.index, ho]
  digests := by simp [record, h.digests, ho]
  indexed := by simp [record, h.indexed, ho]
  skipped := by simp [record, h.skipped, ho]
  byLanguage := by simp [record, h.byLanguage, ho]
  total := h.total

/-- A file with an outcome comes in at the end, and is counted under its language. -/
theorem Covers.record_some {analysed : Analysed} (h : Covers outcome files v)
    (hnew : file.path ∉ files.map (·.path)) (ho : outcome file = some analysed) :
    Covers outcome (files ++ [file]) (v.record file (some analysed)) where
  index := by
    show (v.index.add file.path analysed.outline).files.entries = _
    rw [CodeIndex.entries_add_of_none (h.absent hnew).1, h.index]
    simp [ho]
  digests := by
    show (v.digests.insert file.path analysed.digest).entries = _
    rw [OrderedMap.entries_insert_of_none (h.absent hnew).2, h.digests]
    simp [ho]
  indexed := by
    show v.stats.indexed + 1 = _
    rw [h.indexed]
    simp [ho]
  skipped := by
    show v.stats.skipped = _
    rw [h.skipped]
    simp [ho]
  byLanguage := by
    intro language n
    show (v.stats.byLanguage.insert file.language
      ((v.stats.byLanguage.get? file.language).getD 0 + 1)).get? language = some n ↔ _
    rw [OrderedMap.get?_insert, h.getD_byLanguage, List.countP_append]
    by_cases hl : language = file.language
    · subst hl
      have hone :
          [file].countP (fun f => (outcome f).isSome && f.language == file.language) = 1 := by
        simp [ho]
      rw [if_pos rfl, hone, Option.some.injEq]
      omega
    · have hzero : [file].countP (fun f => (outcome f).isSome && f.language == language) = 0 := by
        simpa using fun _ he => hl he.symm
      rw [if_neg hl, hzero, h.byLanguage, Nat.add_zero]
  total := by
    show (v.stats.byLanguage.insert file.language
      ((v.stats.byLanguage.get? file.language).getD 0 + 1)).total id = v.stats.indexed + 1
    cases hn : v.stats.byLanguage.get? file.language with
    | none =>
      rw [OrderedMap.total_insert hn, h.total]
      rfl
    | some n =>
      have htotal := OrderedMap.total_insert_of_some hn id (n + 1)
      rw [h.total] at htotal
      simp only [id] at htotal
      show (v.stats.byLanguage.insert file.language (n + 1)).total id = _
      omega

/-- **One file more**: the loop goes on to cover it. -/
theorem Covers.record (h : Covers outcome files v) (hnew : file.path ∉ files.map (·.path)) :
    Covers outcome (files ++ [file]) (v.record file (outcome file)) := by
  cases ho : outcome file with
  | none => exact h.record_none ho
  | some analysed => exact h.record_some hnew ho

/-- The loop covers all files that it goes through, if no two have one path. -/
theorem Covers.takeIn {before : List SourceFile}
    (h : Covers (fun f => (w.job pack fs f).value) before v)
    (hnodup : ((before ++ files).map (·.path)).Nodup) :
    Covers (fun f => (w.job pack fs f).value) (before ++ files) (w.takeIn pack fs v files) := by
  induction files generalizing before v with
  | nil =>
    rw [List.append_nil]
    exact h
  | cons file rest ih =>
    have hnew : file.path ∉ before.map (·.path) := by
      intro hm
      rw [List.map_append] at hnodup
      exact (List.nodup_append.mp hnodup).2.2 _ hm _ List.mem_cons_self rfl
    rw [List.append_cons] at hnodup ⊢
    exact ih (h.record hnew) hnodup

theorem covers_nil (seen : Nat) :
    Covers outcome [] { w.reset with stats := { seen } } where
  index := rfl
  digests := rfl
  indexed := rfl
  skipped := rfl
  byLanguage := by
    intro language n
    constructor
    · intro hn
      cases hn
    · rintro ⟨hpos, rfl⟩
      cases hpos
  total := rfl

theorem seen_takeIn (w v : Workspace) (pack : GrammarPack) (fs : FileSystem)
    (files : List SourceFile) : (w.takeIn pack fs v files).stats.seen = v.stats.seen := by
  unfold Workspace.takeIn
  induction files generalizing v with
  | nil => rfl
  | cons file rest ih =>
    rw [List.foldl_cons, ih]
    cases (w.attempt pack fs file.path file.language).value <;> rfl

theorem Covers.noteCancelled (h : Covers outcome files v) : Covers outcome files v.noteCancelled :=
  ⟨h.index, h.digests, h.indexed, h.skipped, h.byLanguage, h.total⟩

theorem Covers.size_index (h : Covers outcome files v) : v.index.size = v.stats.indexed := by
  rw [CodeIndex.size, OrderedMap.size, h.index, h.indexed, List.length_filterMap_eq_countP]
  simp only [Option.isSome_map]

theorem Covers.indexed_add_skipped (h : Covers outcome files v) :
    v.stats.indexed + v.stats.skipped = files.length := by
  have hnone : files.countP (fun f => (outcome f).isNone)
      = files.countP (fun f => decide ¬(outcome f).isSome = true) := by
    refine List.countP_congr ?_
    intro f _
    simp
  rw [h.indexed, h.skipped, hnone]
  exact (List.length_eq_countP_add_countP _).symm

/-! ## What is reported on the way -/

/-- As many reports are given of files as there are files that fail. -/
theorem length_flatMap_failureReports (w : Workspace) (pack : GrammarPack) (fs : FileSystem)
    (files : List SourceFile) :
    (files.flatMap (fun f => (w.job pack fs f).failureReports)).length
      = files.countP (fun f => (w.job pack fs f).value.isNone) := by
  induction files with
  | nil => rfl
  | cons file rest ih =>
    have hfile : (w.job pack fs file).failureReports.length
        = if (w.job pack fs file).value.isSome then 0 else 1 :=
      length_failureReports_attempt file.path file.language
    rw [List.flatMap_cons, List.length_append, ih, hfile, List.countP_cons]
    cases (w.job pack fs file).value with
    | none => exact Nat.add_comm _ _
    | some analysed => exact Nat.zero_add _

theorem failureReports_perm {x : Traced (List (Option Analysed))} {files : List SourceFile}
    (h : x.events.Perm (files.flatMap (fun f => (w.job pack fs f).events))) :
    x.failureReports.Perm (files.flatMap (fun f => (w.job pack fs f).failureReports)) := by
  have hall := (h.filterMap Event.message?).filter Message.tellsFailure
  rwa [List.filterMap_flatMap, List.filter_flatMap] at hall

/-- The results of a scan come with the reports of the files whose results are taken; several
workers may add those of files that come after them. -/
theorem failureReports_results (w : Workspace) (pack : GrammarPack) (fs : FileSystem)
    (conditions : Interleaving) (files : List SourceFile) :
    ∃ others : List SourceFile,
      others.Sublist (files.drop (Scan.taken conditions.cancelled 0 files.length)) ∧
      (w.config.workers ≤ 1 → others = []) ∧
      (w.results pack fs conditions files).failureReports.Perm
        ((files.take (Scan.taken conditions.cancelled 0 files.length) ++ others).flatMap
          (fun f => (w.job pack fs f).failureReports)) := by
  unfold results
  split
  · next hw =>
    obtain ⟨others, hsub, hevents⟩ := Scan.events_parallel (w.job pack fs) conditions files
    refine ⟨others, hsub, ?_, failureReports_perm hevents⟩
    intro hle
    exact absurd hw (Int.not_lt.mpr hle)
  · refine ⟨[], List.nil_sublist _, fun _ => rfl, failureReports_perm ?_⟩
    rw [List.append_nil]
    exact List.Perm.of_eq (Scan.events_sequential 0 files)

section

variable [PatternEngine]

/-- A scan reports no file besides those of its results. -/
theorem failureReports_scan {conditions : Interleaving} {files : List SourceFile}
    (hd : (discover fs w.config).value = .ok files) :
    (w.scan pack fs conditions).failureReports
      = (w.results pack fs conditions files).failureReports := by
  have hnone : (discover fs w.config).failureReports = [] :=
    (reportsFrom_discover fs w.config).failureReports (by decide)
  have hscan : (w.scan pack fs conditions).failureReports
      = (discover fs w.config).failureReports
        ++ (w.reset.scanFiles pack fs conditions files).failureReports := by
    have hreset : discover fs w.reset.config = discover fs w.config := rfl
    unfold scan
    rw [Traced.failureReports_bind, hreset, hd]
    simp only [Traced.failureReports_bind, Traced.failureReports_pure, List.append_nil]
  rw [hscan, hnone, List.nil_append]
  unfold scanFiles
  simp only [Traced.failureReports_bind, Traced.failureReports_pure, failureReports_reportScan,
    List.append_nil]
  rfl

/-! ## The whole scan -/

/-- What a scan leaves that has taken the results of the first `k` of the files it found. -/
structure CutAt (w : Workspace) (pack : GrammarPack) (fs : FileSystem) (files : List SourceFile)
    (k : Nat) (after : Workspace) : Prop
    extends Covers (fun f => (w.job pack fs f).value) (files.take k) after where
  seen : after.stats.seen = files.length
  taken : after.stats.indexed + after.stats.skipped = k
  size : after.index.size = after.stats.indexed
  /-- Every file that was skipped is reported once. -/
  reported : after.stats.skipped
    = ((files.take k).flatMap (fun f => (w.job pack fs f).failureReports)).length
  cancelled : after.stats.cancelled = true ↔ k < files.length

theorem cutAt_scan (pack : GrammarPack) (conditions : Interleaving)
    (hd : (discover fs w.config).value = .ok files) :
    CutAt w pack fs files (Scan.taken conditions.cancelled 0 files.length)
      (w.scan pack fs conditions).value.2 := by
  have hvalue := value_scan w pack fs conditions
  simp only [hd] at hvalue
  rw [hvalue]
  have hk := Scan.taken_le conditions.cancelled 0 files.length
  generalize Scan.taken conditions.cancelled 0 files.length = k at hk ⊢
  have hnodup : (([] ++ files.take k).map SourceFile.path).Nodup := by
    rw [List.nil_append, List.map_take]
    exact (nodup_paths_discover hd).sublist (List.take_sublist _ _)
  have hloop : Covers (fun f => (w.job pack fs f).value) ([] ++ files.take k)
      (w.takeIn pack fs { w.reset with stats := { seen := files.length } } (files.take k)) :=
    (covers_nil files.length).takeIn hnodup
  have hseen := seen_takeIn w { w.reset with stats := { seen := files.length } } pack fs
    (files.take k)
  have htaken := hloop.indexed_add_skipped
  rw [List.nil_append, List.length_take, Nat.min_eq_left hk] at htaken
  generalize w.takeIn pack fs { w.reset with stats := { seen := files.length } } (files.take k) = v
    at hloop hseen htaken ⊢
  refine { hloop.noteCancelled with
    seen := hseen, taken := htaken, size := hloop.size_index, reported := ?_, cancelled := ?_ }
  · rw [length_flatMap_failureReports]
    exact hloop.skipped
  · show decide (v.stats.indexed + v.stats.skipped < v.stats.seen) = true ↔ _
    rw [htaken, hseen, decide_eq_true_eq]

/-- **Whenever a scan is cancelled, it has gone through a beginning of the discovered files** and
leaves what these come to; it goes through all of them exactly if it is not found cancelled before.
Its reports of files that fail are those of the files it has gone through, to which only several
workers may add those of later files.  However such workers go about their work, and whenever they
are interrupted, they come to an end with the results of a scan, which is cut where they stopped. -/
theorem scan_cut (w : Workspace) (pack : GrammarPack) (fs : FileSystem) (conditions : Interleaving)
    {files : List SourceFile} (hd : (discover fs w.config).value = .ok files) :
    (∃ k ≤ files.length, CutAt w pack fs files k (w.scan pack fs conditions).value.2 ∧
      (∀ j < k, conditions.cancelled j = false) ∧
      (k < files.length → conditions.cancelled k = true) ∧
      ((∀ i, conditions.cancelled i = false) → k = files.length) ∧
      ∃ others : List SourceFile, others.Sublist (files.drop k) ∧
        (w.config.workers ≤ 1 → others = []) ∧
        (w.scan pack fs conditions).failureReports.Perm
          ((files.take k ++ others).flatMap (fun f => (w.job pack fs f).failureReports))) ∧
    (1 < w.config.workers → ∀ p, Pool.Reached (w.job pack fs) files w.config.workers.toNat p →
      Pool.Terminates (w.job pack fs) files w.config.workers.toNat p ∧
        (p.Ended → w.results pack fs p.interleaving files = ⟨p.taken, p.log⟩ ∧
          CutAt w pack fs files p.taken.length (w.scan pack fs p.interleaving).value.2)) := by
  have hk := Scan.taken_le conditions.cancelled 0 files.length
  obtain ⟨hbefore, hat⟩ := (Scan.taken_eq_iff (i := 0) hk).mp rfl
  simp only [Nat.zero_add] at hbefore hat
  have hreports := failureReports_results w pack fs conditions files
  rw [← failureReports_scan hd] at hreports
  refine ⟨⟨_, hk, cutAt_scan pack conditions hd, hbefore, hat, ?_, hreports⟩, ?_⟩
  · intro hnever
    exact Scan.taken_of_uncancelled hnever 0 files.length
  · intro hw p hrun
    refine ⟨hrun.terminates (by omega), ?_⟩
    intro hended
    have hcut := cutAt_scan pack p.interleaving hd
    rw [Pool.taken_interleaving hrun.valid hended] at hcut
    exact ⟨results_interleaving hw hrun.valid hended, hcut⟩

end

/-- A scan that is cancelled after the first of two files, which has no outline. -/
theorem scan_cut_javaAndPython :
    CutAt (fresh { projectRoot := "/ws" } pythonOnly) blankPack javaAndPython
      [⟨"/ws/A.java", "java"⟩, ⟨"/ws/b.py", "python"⟩] 1
      ((fresh { projectRoot := "/ws" } pythonOnly).scan blankPack javaAndPython
        { cancelled := fun i => decide (1 ≤ i) }).value.2 := by
  obtain ⟨⟨k, hk, hcut, hbefore, hat, -⟩, -⟩ :=
    scan_cut (fresh { projectRoot := "/ws" } pythonOnly) blankPack javaAndPython
      { cancelled := fun i => decide (1 ≤ i) } discover_javaAndPython
  have hpos : 1 ≤ k := by
    by_cases hlt : k < 2
    · exact of_decide_eq_true (hat hlt)
    · omega
  have hle : k ≤ 1 := by
    refine Nat.le_of_not_lt ?_
    intro hlt
    cases hbefore 1 hlt
  obtain rfl := Nat.le_antisymm hle hpos
  exact hcut

end Workspace

end SourceIndex
