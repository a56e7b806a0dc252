import SourceIndex.Proofs.Workspace.Pool
import SourceIndex.Proofs.Workspace.Reindex
import SourceIndex.Proofs.Workspace.Returns

/-!
# The number of workers does not show

A scan depends on its conditions only through the number of results it takes before it is cancelled
(`value_scan_congr`), and on the number of workers not at all (`value_scan_withWorkers`).  So **a
scan with several workers, however they go about their work, leaves what a scan with one worker
leaves** (`scan_agrees`).
-/

namespace SourceIndex

/-- The files that discovery comes to; none if it fails. -/
def Discovery.found [PatternEngine] (fs : FileSystem) (config : Config) : List SourceFile :=
  match (discover fs config).value with
  | .ok files => files
  | .error _ => []

namespace Workspace

variable {w : Workspace} {pack : GrammarPack} {fs : FileSystem}

/-- What a scan does for one file. -/
def job (w : Workspace) (pack : GrammarPack) (fs : FileSystem) (file : SourceFile) :
    Traced (Option Analysed) :=
  w.attempt pack fs file.path file.language

/-- The workspace with another number of workers. -/
def withWorkers (w : Workspace) (workers : Int) : Workspace :=
  { w with config := { w.config with workers } }

/-- Two workspaces hold the same entries, in the same order and with the same totals, and tell the
same of the last scan. -/
structure Agrees (v w : Workspace) : Prop where
  index : v.index = w.index
  digests : v.digests = w.digests
  stats : v.stats = w.stats

theorem record_withWorkers (v : Workspace) (workers : Int) (file : SourceFile)
    (result : Option Analysed) :
    (v.withWorkers workers).record file result = (v.record file result).withWorkers workers := by
  cases result with
  | none => rfl
  | some analysed => rfl

theorem takeIn_withWorkers (w v : Workspace) (pack : GrammarPack) (fs : FileSystem) (workers : Int)
    (files : List SourceFile) :
    (w.withWorkers workers).takeIn pack fs (v.withWorkers workers) files
      = (w.takeIn pack fs v files).withWorkers workers := by
  unfold takeIn
  induction files generalizing v with
  | nil => rfl
  | cons file rest ih =>
    rw [List.foldl_cons, record_withWorkers]
    exact ih _

section

variable [PatternEngine]

/-- The number of workers does not show in what a scan leaves, nor in its answer. -/
theorem value_scan_withWorkers (w : Workspace) (pack : GrammarPack) (fs : FileSystem)
    (conditions : Interleaving) (workers : Int) :
    ((w.withWorkers workers).scan pack fs conditions).value.1
        = (w.scan pack fs conditions).value.1 ∧
      ((w.withWorkers workers).scan pack fs conditions).value.2
        = (w.scan pack fs conditions).value.2.withWorkers workers := by
  have hdiscover : discover fs (w.withWorkers workers).config = discover fs w.config := rfl
  constructor
  · rw [answer_scan, answer_scan, hdiscover]
  · rw [value_scan, value_scan, hdiscover]
    cases (discover fs w.config).value with
    | error e => rfl
    | ok files =>
      have hloop := takeIn_withWorkers w { w.reset with stats := { seen := files.length } } pack fs
        workers (files.take (Scan.taken conditions.cancelled 0 files.length))
      exact congrArg noteCancelled hloop

/-- Two scans that take the same number of results leave the same. -/
theorem value_scan_congr {c d : Interleaving}
    (h : ∀ n, Scan.taken c.cancelled 0 n = Scan.taken d.cancelled 0 n) :
    (w.scan pack fs c).value = (w.scan pack fs d).value := by
  refine Prod.ext ?_ ?_
  · rw [answer_scan, answer_scan]
  · rw [value_scan, value_scan]
    simp only [h]

theorem agrees_of_uncancelled {c d : Interleaving} (hc : ∀ i, c.cancelled i = false)
    (hd : ∀ i, d.cancelled i = false) (m n : Int) :
    ((w.withWorkers m).scan pack fs c).value.1 = ((w.withWorkers n).scan pack fs d).value.1 ∧
      Agrees ((w.withWorkers m).scan pack fs c).value.2
        ((w.withWorkers n).scan pack fs d).value.2 := by
  have hsame : (w.scan pack fs c).value = (w.scan pack fs d).value := by
    refine value_scan_congr ?_
    intro k
    rw [Scan.taken_of_uncancelled hc, Scan.taken_of_uncancelled hd]
  obtain ⟨hanswer, hleft⟩ := value_scan_withWorkers w pack fs c m
  obtain ⟨hanswer', hleft'⟩ := value_scan_withWorkers w pack fs d n
  rw [hanswer, hanswer', hleft, hleft', hsame]
  exact ⟨rfl, rfl, rfl, rfl⟩

omit [PatternEngine] in
/-- At the end of a run, the workers have taken and done what the files of a scan come to. -/
theorem results_interleaving {files : List SourceFile} {p : Pool (Option Analysed)}
    (hw : 1 < w.config.workers) (h : Pool.Valid (w.job pack fs) files p) (he : p.Ended) :
    w.results pack fs p.interleaving files = ⟨p.taken, p.log⟩ := by
  unfold results
  rw [if_pos hw]
  exact Pool.parallel_interleaving h he

/-- **Several workers leave what one worker leaves.**  Every run of the workers over the discovered
files ends.  If it was not cancelled, then its results and events are those of a scan, and this scan
agrees with every scan that was not cancelled, by one worker or by any other number of them. -/
theorem scan_agrees (w : Workspace) (pack : GrammarPack) (fs : FileSystem) {many : Int}
    (hmany : 1 < many) {p : Pool (Option Analysed)}
    (hrun : Pool.Reached (w.job pack fs) (Discovery.found fs w.config) many.toNat p) :
    Pool.Terminates (w.job pack fs) (Discovery.found fs w.config) many.toNat p ∧
      (p.Ended → p.isCancelled = false →
        (w.withWorkers many).results pack fs p.interleaving (Discovery.found fs w.config)
            = ⟨p.taken, p.log⟩ ∧
          ∀ (few : Int) (alone : Interleaving), (∀ i, alone.cancelled i = false) →
            ((w.withWorkers many).scan pack fs p.interleaving).value.1
                = ((w.withWorkers few).scan pack fs alone).value.1 ∧
              Agrees ((w.withWorkers many).scan pack fs p.interleaving).value.2
                ((w.withWorkers few).scan pack fs alone).value.2) := by
  refine ⟨hrun.terminates (by omega), ?_⟩
  intro hended hnot
  have hresults : (w.withWorkers many).results pack fs p.interleaving (Discovery.found fs w.config)
      = ⟨p.taken, p.log⟩ := results_interleaving (w := w.withWorkers many) hmany hrun.valid hended
  refine ⟨hresults, ?_⟩
  intro few alone halone
  refine agrees_of_uncancelled ?_ halone many few
  intro i
  show (p.isCancelled && decide (p.taken.length ≤ i)) = false
  rw [hnot, Bool.false_and]

end

/-- A Java file and a Python file, both empty. -/
def javaAndPython : FileSystem := emptyFiles ["A.java", "b.py"]

/-- A registry of Python alone. -/
def pythonOnly : Registry := ⟨OrderedMap.ofList [("python", "python")]⟩

theorem discover_javaAndPython :
    (discover javaAndPython { projectRoot := "/ws" }).value
      = .ok [⟨"/ws/A.java", "java"⟩, ⟨"/ws/b.py", "python"⟩] := by
  have hlists : javaAndPython.Lists { projectRoot := "/ws" } ["ws"] :=
    ⟨eq_ok_of_toOption (by decide +kernel), by decide +kernel, rfl, nofun, by decide +kernel⟩
  have hbelow : (javaAndPython.volume.entries.keys.filterMap (javaAndPython.fileBelow? ["ws"])).filter
      (fun file => !javaAndPython.misses file.1)
        = [(["ws", "A.java"], []), (["ws", "b.py"], [])] := by decide +kernel
  have hfiles : javaAndPython.filesBelow ["ws"]
      = [(["ws", "A.java"], []), (["ws", "b.py"], [])] := by
    rw [FileSystem.filesBelow, hbelow]
    exact List.mergeSort_of_pairwise (by decide +kernel)
  exact value_discover_of_filesBelow hlists hfiles (by decide +kernel)

/-- Two workers finish the second file before the first, which has no outline; the scan agrees with
that of one worker. -/
theorem scan_agrees_javaAndPython :
    ∃ p, Pool.Reached ((fresh { projectRoot := "/ws" } pythonOnly).job blankPack javaAndPython)
        (Discovery.found javaAndPython { projectRoot := "/ws" }) 2 p ∧
      p.Ended ∧ p.isCancelled = false ∧ p.done.keys = [1, 0] ∧
      Agrees
        (((fresh { projectRoot := "/ws" } pythonOnly).withWorkers 2).scan blankPack javaAndPython
          p.interleaving).value.2
        (((fresh { projectRoot := "/ws" } pythonOnly).withWorkers 1).scan blankPack javaAndPython
          {}).value.2 := by
  obtain ⟨p, hrun, hended, hnot, hkeys⟩ := Pool.exists_reached_backwards
    ((fresh { projectRoot := "/ws" } pythonOnly).job blankPack javaAndPython)
    ⟨"/ws/A.java", "java"⟩ ⟨"/ws/b.py", "python"⟩
  have hfound : Discovery.found javaAndPython { projectRoot := "/ws" }
      = [⟨"/ws/A.java", "java"⟩, ⟨"/ws/b.py", "python"⟩] := by
    rw [Discovery.found, discover_javaAndPython]
  rw [← hfound] at hrun
  have hmany : (1 : Int) < 2 := by decide
  obtain ⟨-, hend⟩ := scan_agrees (fresh { projectRoot := "/ws" } pythonOnly) blankPack
    javaAndPython hmany hrun
  exact ⟨p, hrun, hended, hnot, hkeys, ((hend hended hnot).2 1 {} (fun _ => rfl)).2⟩

end Workspace

end SourceIndex
