import Mathlib.Data.List.Perm.Subperm
import Mathlib.Logic.Relation
import SourceIndex.Proofs.Workspace.Scan

/-!
# The workers of a scan, step by step

`Scan.parallel` is told in which order files are finished, and after how many results the scan is
found cancelled.  Here workers start and finish files one step at a time, in any order, while the
scan takes the results in the order of the files; it may be cancelled at any moment.  What a worker
does for a file is noted when the file is finished, so that the steps of two files do not mix in the
log.

* Every run comes to an end, and is never stuck before (`Reached.terminates`).
* **At its end it has taken and done what `Scan.parallel` takes and does** for the order that came
  about (`parallel_interleaving`).

All of this follows from one invariant, `Valid`, which every step keeps (`Valid.step`).
-/

namespace SourceIndex

/-- What the scan does while workers run. -/
inductive Pool.Stage where
  /-- It looks whether it has been cancelled, before it asks for the next result. -/
  | checking
  /-- It waits for the next result. -/
  | waiting
  /-- It asks for no more results; files may still be started. -/
  | stopping
  /-- No file may be started any more. -/
  | stopped
deriving DecidableEq

/-- The workers of a scan, and what has been taken of their results. -/
structure Pool (ρ : Type) where
  /-- The numbers of the files that workers have started and not finished. -/
  running : List Nat := []
  /-- The results of the files that have been finished, in the order of finishing. -/
  done : OrderedMap Nat ρ := OrderedMap.empty
  /-- What the workers did for these files. -/
  log : List Event := []
  /-- Whether the scan has been cancelled. -/
  isCancelled : Bool := false
  stage : Pool.Stage := .checking
  /-- The results that have been taken, in the order of the files. -/
  taken : List ρ := []

namespace Pool

variable {ρ : Type} {job : SourceFile → Traced ρ} {files : List SourceFile} {workers : Nat}
  {p q : Pool ρ}

/-- The steps of workers, of the scan, and of whoever cancels it. -/
inductive Step (job : SourceFile → Traced ρ) (files : List SourceFile) (workers : Nat) :
    Pool ρ → Pool ρ → Prop
  | start {p : Pool ρ} {i : Nat} (hi : i < files.length) (hfree : p.running.length < workers)
      (hnew : i ∉ p.running ++ p.done.keys) (hopen : p.stage ≠ .stopped) :
      Step job files workers p { p with running := i :: p.running }
  | finish {p : Pool ρ} {i : Nat} {file : SourceFile} (hi : i ∈ p.running)
      (hf : files[i]? = some file) :
      Step job files workers p
        { p with
          running := p.running.erase i
          done := p.done.insert i (job file).value
          log := p.log ++ (job file).events }
  | cancel {p : Pool ρ} (hc : p.isCancelled = false) :
      Step job files workers p { p with isCancelled := true }
  | goOn {p : Pool ρ} (hs : p.stage = .checking) (hn : p.taken.length < files.length)
      (hc : p.isCancelled = false) : Step job files workers p { p with stage := .waiting }
  | take {p : Pool ρ} {result : ρ} (hs : p.stage = .waiting)
      (hr : p.done.get? p.taken.length = some result) :
      Step job files workers p { p with stage := .checking, taken := p.taken ++ [result] }
  | breakOff {p : Pool ρ} (hs : p.stage = .checking) (hn : p.taken.length < files.length)
      (hc : p.isCancelled = true) : Step job files workers p { p with stage := .stopping }
  | complete {p : Pool ρ} (hs : p.stage = .checking) (hn : p.taken.length = files.length) :
      Step job files workers p { p with stage := .stopping }
  | close {p : Pool ρ} (hs : p.stage = .stopping) :
      Step job files workers p { p with stage := .stopped }

/-- A state that workers and scan can come to. -/
def Reached (job : SourceFile → Traced ρ) (files : List SourceFile) (workers : Nat) (p : Pool ρ) :
    Prop :=
  Relation.ReflTransGen (Step job files workers) {} p

/-- All is done: no file may be started, and none is being worked on. -/
def Ended (p : Pool ρ) : Prop := p.stage = .stopped ∧ p.running = []

/-! ## The invariant -/

/-- What holds of every state that is reached. -/
structure Valid (job : SourceFile → Traced ρ) (files : List SourceFile) (p : Pool ρ) : Prop where
  /-- No file is started twice. -/
  nodup : (p.running ++ p.done.keys).Nodup
  inRange : ∀ i ∈ p.running ++ p.done.keys, i < files.length
  done : Scan.Done job files p.done
  log : p.log = p.done.keys.flatMap (Scan.eventsOf job files)
  /-- The results taken are those of the first files, which have all been finished. -/
  taken : p.taken = (files.take p.taken.length).map (fun f => (job f).value)
  taken_le : p.taken.length ≤ files.length
  finished : ∀ i < p.taken.length, i ∈ p.done.keys
  waiting : p.stage = .waiting → p.taken.length < files.length
  /-- Only a scan that has been cancelled stops before the last file. -/
  stopping : p.stage = .stopping ∨ p.stage = .stopped → p.taken.length < files.length →
    p.isCancelled = true

theorem valid_initial : Valid job files ({} : Pool ρ) where
  nodup := List.nodup_nil
  inRange := nofun
  done := nofun
  log := rfl
  taken := rfl
  taken_le := Nat.zero_le _
  finished := nofun
  waiting := nofun
  stopping := nofun

theorem Valid.start {i : Nat} (h : Valid job files p) (hi : i < files.length)
    (hnew : i ∉ p.running ++ p.done.keys) :
    Valid job files { p with running := i :: p.running } :=
  { h with
    nodup := List.nodup_cons.mpr ⟨hnew, h.nodup⟩
    inRange := by
      intro j hj
      rcases List.mem_cons.mp hj with rfl | hj
      · exact hi
      · exact h.inRange j hj }

/-- A file that is being worked on has not been finished. -/
theorem Valid.get?_of_running {i : Nat} (h : Valid job files p) (hi : i ∈ p.running) :
    p.done.get? i = none := by
  refine OrderedMap.not_mem_keys_iff.mp ?_
  intro hk
  exact (List.nodup_append.mp h.nodup).2.2 i hi i hk rfl

theorem Valid.finish {i : Nat} {file : SourceFile} (h : Valid job files p) (hi : i ∈ p.running)
    (hf : files[i]? = some file) :
    Valid job files
      { p with
        running := p.running.erase i
        done := p.done.insert i (job file).value
        log := p.log ++ (job file).events } := by
  have hkeys : (p.done.insert i (job file).value).keys = p.done.keys ++ [i] :=
    OrderedMap.keys_insert_of_none (h.get?_of_running hi) _
  -- The number only moves from the one list to the other.
  have hmoved : (p.running.erase i ++ (p.done.keys ++ [i])).Perm (p.running ++ p.done.keys) := by
    have hfront := (List.perm_cons_erase hi).append_right p.done.keys
    rw [← List.append_assoc]
    exact List.perm_append_comm.trans hfront.symm
  have hevents : Scan.eventsOf job files i = (job file).events := by rw [Scan.eventsOf, hf]
  refine { h with nodup := ?_, inRange := ?_, done := h.done.insert hf, log := ?_, finished := ?_ }
  · rw [hkeys]
    exact hmoved.nodup_iff.mpr h.nodup
  · intro j hj
    rw [hkeys] at hj
    exact h.inRange j (hmoved.mem_iff.mp hj)
  · rw [hkeys, List.flatMap_append, List.flatMap_singleton, hevents, ← h.log]
  · intro j hj
    rw [hkeys]
    exact List.mem_append_left _ (h.finished j hj)

theorem Valid.take {result : ρ} (h : Valid job files p) (hs : p.stage = .waiting)
    (hr : p.done.get? p.taken.length = some result) :
    Valid job files { p with stage := .checking, taken := p.taken ++ [result] } := by
  have hlt := h.waiting hs
  have hlen : (p.taken ++ [result]).length = p.taken.length + 1 := List.length_append
  have hresult : result = (job files[p.taken.length]).value := by
    obtain ⟨file, hf, hv⟩ := h.done _ _ hr
    rw [List.getElem?_eq_getElem hlt] at hf
    rw [hv, ← Option.some.inj hf]
  refine { h with
    taken := ?_, taken_le := ?_, finished := ?_
    waiting := nofun, stopping := ?_ }
  · show p.taken ++ [result] = _
    rw [hlen, List.take_succ_eq_append_getElem hlt, List.map_append, ← h.taken, hresult]
    rfl
  · rw [hlen]
    exact hlt
  · intro i hi
    rw [hlen] at hi
    rcases Nat.lt_succ_iff_lt_or_eq.mp hi with hi | rfl
    · exact h.finished i hi
    · exact (OrderedMap.mem_keys_iff _ _).mpr ⟨result, hr⟩
  · rintro (hs | hs) <;> cases hs

/-- **Every step keeps the invariant.** -/
theorem Valid.step (h : Valid job files p) (hs : Step job files workers p q) :
    Valid job files q := by
  cases hs with
  | start hi _ hnew _ => exact h.start hi hnew
  | finish hi hf => exact h.finish hi hf
  | cancel hc => exact { h with stopping := fun _ _ => rfl }
  | goOn hs hn hc =>
    refine { h with waiting := fun _ => hn, stopping := ?_ }
    rintro (hs | hs) <;> cases hs
  | take hs hr => exact h.take hs hr
  | breakOff hs hn hc => exact { h with waiting := nofun, stopping := fun _ _ => hc }
  | complete hs hn =>
    refine { h with waiting := nofun, stopping := ?_ }
    intro _ hlt
    exact absurd hn (Nat.ne_of_lt hlt)
  | close hs =>
    exact { h with
      waiting := nofun
      stopping := fun _ => h.stopping (Or.inl hs) }

theorem Reached.valid (h : Reached job files workers p) : Valid job files p := by
  induction h with
  | refl => exact valid_initial
  | tail _ hs ih => exact ih.step hs

/-! ## Progress and termination -/

theorem exists_finish {i : Nat} (h : Valid job files p) (hi : i ∈ p.running) :
    ∃ q, Step job files workers p q ∧ q.isCancelled = p.isCancelled := by
  have hlt := h.inRange i (List.mem_append_left _ hi)
  exact ⟨_, .finish hi (List.getElem?_eq_getElem hlt), rfl⟩

/-- The result that the scan waits for can be had: its file has been finished, or is being worked
on, or a worker is free to start it, or all workers have something to finish. -/
theorem exists_step_of_waiting (h : Valid job files p) (hw : 0 < workers)
    (hs : p.stage = .waiting) :
    ∃ q, Step job files workers p q ∧ q.isCancelled = p.isCancelled := by
  cases hr : p.done.get? p.taken.length with
  | some result => exact ⟨_, .take hs hr, rfl⟩
  | none =>
    by_cases hrun : p.taken.length ∈ p.running
    · exact exists_finish h hrun
    · by_cases hfree : p.running.length < workers
      · have hnew : p.taken.length ∉ p.running ++ p.done.keys := by
          rw [List.mem_append, not_or]
          exact ⟨hrun, OrderedMap.not_mem_keys_iff.mpr hr⟩
        have hopen : p.stage ≠ .stopped := by
          rw [hs]
          decide
        exact ⟨_, .start (h.waiting hs) hfree hnew hopen, rfl⟩
      · obtain ⟨i, hi⟩ := List.exists_mem_of_length_pos (l := p.running) (by omega)
        exact exists_finish h hi

/-- A run that has not ended goes on, also if no one cancels it. -/
theorem step_or_ended (h : Valid job files p) (hw : 0 < workers) :
    p.Ended ∨ ∃ q, Step job files workers p q ∧ q.isCancelled = p.isCancelled := by
  cases hs : p.stage with
  | checking =>
    right
    rcases Nat.lt_or_eq_of_le h.taken_le with hn | hn
    · cases hc : p.isCancelled with
      | true => exact ⟨_, .breakOff hs hn hc, hc⟩
      | false => exact ⟨_, .goOn hs hn hc, hc⟩
    · exact ⟨_, .complete hs hn, rfl⟩
  | waiting => exact Or.inr (exists_step_of_waiting h hw hs)
  | stopping => exact Or.inr ⟨_, .close hs, rfl⟩
  | stopped =>
    cases hrun : p.running with
    | nil => exact Or.inl ⟨hs, hrun⟩
    | cons i rest => exact Or.inr (exists_finish h (hrun ▸ List.mem_cons_self))

/-- How many steps the scan itself has left at most, of `n` files. -/
def Stage.left (n : Nat) : Stage → Nat
  | .checking => 2 * n + 2
  | .waiting => 2 * n + 1
  | .stopping => 1
  | .stopped => 0

/-- How many steps are left at most: two for each file that has not been started, one for each that
is being worked on, those of the scan, and one for cancelling it. -/
def left (n : Nat) (p : Pool ρ) : Nat :=
  2 * (n - (p.running.length + p.done.keys.length)) + p.running.length
    + p.stage.left (n - p.taken.length) + if p.isCancelled then 0 else 1

theorem Step.left_lt (h : Valid job files p) (hs : Step job files workers p q) :
    q.left files.length < p.left files.length := by
  cases hs with
  | @start i hi _ hnew _ =>
    -- There are at least as many files as have been started, the new one included.
    have hsub : (i :: (p.running ++ p.done.keys)).length ≤ (List.range files.length).length := by
      refine (List.subperm_of_subset (List.nodup_cons.mpr ⟨hnew, h.nodup⟩) ?_).length_le
      intro j hj
      rcases List.mem_cons.mp hj with rfl | hj
      · exact List.mem_range.mpr hi
      · exact List.mem_range.mpr (h.inRange j hj)
    simp only [List.length_cons, List.length_append, List.length_range] at hsub
    simp only [left, List.length_cons]
    omega
  | @finish i file hi hf =>
    have hkeys := OrderedMap.keys_insert_of_none (h.get?_of_running hi) (job file).value
    have hlen := List.length_erase_of_mem hi
    have hpos := List.length_pos_of_mem hi
    simp only [left, hkeys, hlen, List.length_append, List.length_singleton]
    omega
  | cancel hc => simp [left, hc]
  | goOn hs hn hc => simp [left, hs, Stage.left]
  | take hs hr =>
    have hlt := h.waiting hs
    simp only [left, hs, Stage.left, List.length_append, List.length_singleton]
    omega
  | breakOff hs hn hc =>
    simp only [left, hs, Stage.left]
    omega
  | complete hs hn =>
    simp only [left, hs, Stage.left]
    omega
  | close hs => simp [left, hs, Stage.left]

theorem acc_of_valid (h : Valid job files p) : Acc (fun q p => Step job files workers p q) p := by
  induction hn : p.left files.length using Nat.strongRecOn generalizing p with
  | ind n ih =>
    refine Acc.intro p ?_
    intro q hs
    exact ih _ (hn ▸ hs.left_lt h) (h.step hs) rfl

/-- Every run from a state comes to an end, and it is not stuck there. -/
structure Terminates (job : SourceFile → Traced ρ) (files : List SourceFile) (workers : Nat)
    (p : Pool ρ) : Prop where
  ends : Acc (fun q p => Step job files workers p q) p
  goesOn : p.Ended ∨ ∃ q, Step job files workers p q ∧ q.isCancelled = p.isCancelled

/-- **Every run comes to an end.** -/
theorem Reached.terminates (h : Reached job files workers p) (hw : 0 < workers) :
    Terminates job files workers p :=
  ⟨acc_of_valid h.valid, step_or_ended h.valid hw⟩

/-! ## What a run comes to -/

/-- What a run decided: the order in which files were finished, and where the scan was found
cancelled. -/
def interleaving (p : Pool ρ) : Interleaving where
  order := fun _ => p.done.keys
  cancelled := fun i => p.isCancelled && decide (p.taken.length ≤ i)

theorem taken_interleaving (h : Valid job files p) (he : p.Ended) :
    Scan.taken p.interleaving.cancelled 0 files.length = p.taken.length := by
  refine (Scan.taken_eq_iff h.taken_le).mpr ⟨?_, ?_⟩
  · intro j hj
    have hnot : ¬p.taken.length ≤ j := Nat.not_le_of_lt hj
    simp [interleaving, hnot]
  · intro hlt
    simp [interleaving, h.stopping (Or.inr he.1) hlt]

/-- **At the end of a run, the results and the events are those of `Scan.parallel`** for the order
that came about. -/
theorem parallel_interleaving (h : Valid job files p) (he : p.Ended) :
    Scan.parallel job p.interleaving files = ⟨p.taken, p.log⟩ := by
  have hvalue : (Scan.parallel job p.interleaving files).value = p.taken := by
    rw [Scan.value_parallel, taken_interleaving h he]
    exact h.taken.symm
  have hevents : (Scan.parallel job p.interleaving files).events = p.log := by
    generalize hd : (Scan.work job files (p.interleaving.order files.length)
      OrderedMap.empty).value = done
    have hkeys : done.keys = p.done.keys := by
      rw [← hd]
      refine Scan.keys_work ?_ p.done.nodup
      intro i hi
      exact h.inRange i (List.mem_append_right _ hi)
    -- Every result that was taken had been there, so that nothing was left to be waited for.
    have hnone : (List.range p.taken.length).filter (fun i => (done.get? i).isNone) = [] := by
      refine List.filter_eq_nil_iff.mpr ?_
      intro i hi hi'
      have hmem : i ∈ done.keys := hkeys ▸ h.finished i (List.mem_range.mp hi)
      exact OrderedMap.not_mem_keys_iff.mpr (Option.isNone_iff_eq_none.mp hi') hmem
    rw [Scan.events_parallel_eq p.interleaving files hd, taken_interleaving h he, hnone,
      List.append_nil, hkeys]
    exact h.log.symm
  generalize Scan.parallel job p.interleaving files = x at hvalue hevents ⊢
  rw [← hvalue, ← hevents]

/-- Two workers may finish the second of two files before the first. -/
theorem exists_reached_backwards (job : SourceFile → Traced ρ) (first second : SourceFile) :
    ∃ p, Reached job [first, second] 2 p ∧ p.Ended ∧ p.isCancelled = false ∧
      p.done.keys = [1, 0] := by
  have hempty : (OrderedMap.empty : OrderedMap Nat ρ).keys = [] := rfl
  have hinitial : Reached job [first, second] 2 {} := .refl
  have hfirst := hinitial.tail (.start (i := 0) (by simp) (by simp) (by simp [hempty]) (by simp))
  have hsecond := hfirst.tail (.start (i := 1) (by simp) (by simp) (by simp [hempty]) (by simp))
  have hlater := hsecond.tail (.finish (i := 1) (by simp) rfl)
  have hearlier := hlater.tail (.finish (i := 0) (by simp) rfl)
  have htaken := (hearlier.tail (.goOn rfl (by simp) rfl)).tail (.take rfl rfl)
  have hboth := (htaken.tail (.goOn rfl (by simp) rfl)).tail (.take rfl rfl)
  have hend := (hboth.tail (.complete rfl rfl)).tail (.close rfl)
  exact ⟨_, hend, ⟨rfl, rfl⟩, rfl, rfl⟩

end Pool

end SourceIndex
