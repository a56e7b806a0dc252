import Mathlib.Algebra.Ring.Nat
import SourceIndex.Proofs.Session.Run
import SourceIndex.Proofs.Workspace.Cut

/-!
# Workspaces of one session do not meet

Two sessions that keep the same for a root cannot be told apart by requests about it, and a request
about another root changes nothing of this (`Alike.respond`, `Alike.respond_of_other`).  So **what a
session answers about a root is what it would answer without all requests about other roots**
(`workspaces_isolated`), although its workspaces stand in one table and share a registry.

The overview of a workspace shows numbers from two places: the index, and what the last scan has
counted.  A scan sets both anew, and nothing else of a session changes either, so that they fit
together in every session (`tallied_reached`).
-/

namespace SourceIndex

namespace Workspace

variable {w : Workspace} {pack : GrammarPack} {config : Config} {registry : Registry}

/-! ## What scans count -/

/-- The counts by language come to the number of entries. -/
def Tallied (w : Workspace) : Prop :=
  w.stats.byLanguage.total id = w.index.size

section

variable [PatternEngine]

theorem tallied_scan {fs : FileSystem} (w : Workspace) (pack : GrammarPack)
    (conditions : Interleaving) :
    (w.scan pack fs conditions).value.2.Tallied := by
  cases hd : (discover fs w.config).value with
  | error e =>
    rw [value_scan, hd]
    rfl
  | ok files =>
    have hcut := cutAt_scan pack conditions hd
    exact hcut.total.trans hcut.size.symm

theorem tallied_run {moments : List Moment} (h : w.Tallied)
    (hscan : ∀ m ∈ moments, ∃ conditions, m.request = .scan conditions) :
    (w.run pack moments).Tallied := by
  induction moments generalizing w with
  | nil => exact h
  | cons m rest ih =>
    obtain ⟨conditions, hm⟩ := hscan m List.mem_cons_self
    refine ih ?_ (fun later hl => hscan later (List.mem_cons_of_mem m hl))
    simp only [perform, hm]
    exact tallied_scan w pack conditions

end

end Workspace

/-- What is shown of the counts by language comes to their total. -/
theorem ScanStats.sum_sortedCounts (s : ScanStats) :
    (s.sortedCounts.map Prod.snd).sum = s.byLanguage.total id := by
  have hperm := (List.mergeSort_perm s.byLanguage.entries
    (fun a b => decide (a.1 ≤ b.1))).map Prod.snd
  exact hperm.sum_nat

namespace Session

variable {pack : GrammarPack} {s t : Session} {m : Moment} {root : String}

section

variable [PatternEngine]

/-! ## What can be told of a root -/

/-- The answers that a session gives to one request after another. -/
def transcript (s : Session) (pack : GrammarPack) :
    List Moment → List (Moment × Except Failure String)
  | [] => []
  | m :: rest => (m, (s.respond pack m).1) :: transcript (s.respond pack m).2 pack rest

/-- Two sessions keep the same for a root. -/
structure Alike (pack : GrammarPack) (root : String) (s t : Session) : Prop where
  settled : s.Settled pack ∧ t.Settled pack
  kept : s.workspaces.get? root = t.workspaces.get? root

/-- A request about a root is answered alike, and leaves the sessions alike. -/
theorem Alike.respond (h : Alike pack root s t) (hm : m.isFor root = true) :
    (s.respond pack m).1 = (t.respond pack m).1 ∧
      Alike pack root (s.respond pack m).2 (t.respond pack m).2 := by
  obtain ⟨hs, hget⟩ := h.settled.1.respond m
  obtain ⟨ht, hget'⟩ := h.settled.2.respond m
  refine ⟨?_, ⟨hs, ht⟩, ?_⟩
  · refine answer_respond_congr h.settled.1 h.settled.2 ?_
    intro there hthere
    have hroot : m.root? = some root := by simpa [Moment.isFor] using hm
    rw [hroot] at hthere
    rw [← Option.some.inj hthere]
    exact h.kept
  · rw [hget, hget', h.kept]

/-- A request about another root does not show. -/
theorem Alike.respond_of_other (h : Alike pack root s t) (hm : m.isFor root = false) :
    Alike pack root (s.respond pack m).2 t := by
  obtain ⟨hs, hget⟩ := h.settled.1.respond m
  refine ⟨⟨hs, h.settled.2⟩, ?_⟩
  have hclosed : m.opens root = false := by
    simp [Moment.opens, Moment.indexes, Moment.asksEnclosing, hm]
  rw [hget, hclosed]
  exact h.kept

theorem Alike.filter_transcript (h : Alike pack root s t) (moments : List Moment) :
    (transcript s pack moments).filter (·.1.isFor root)
      = transcript t pack (moments.filter (·.isFor root)) := by
  induction moments generalizing s t with
  | nil => rfl
  | cons m rest ih =>
    rw [transcript]
    cases hm : m.isFor root with
    | true =>
      obtain ⟨hanswer, halike⟩ := h.respond hm
      simp only [List.filter_cons, hm, if_true, transcript, ih halike, hanswer]
    | false =>
      rw [List.filter_cons_of_neg (by simp [hm]), List.filter_cons_of_neg (by simp [hm])]
      exact ih (h.respond_of_other hm)

/-! ## What the overview shows -/

/-- The overview that shows the given numbers. -/
def overviewOf (root : String) (files : Nat) (counts : List (String × Nat)) (functions classes : Int)
    (ranked : List String) : String :=
  Text.joinWith "\n"
    (["Workspace: " ++ root, "Files:     " ++ Text.number files]
      ++ counts.map (fun c => "  " ++ c.1 ++ ": " ++ Text.number c.2)
      ++ ["Functions: " ++ Text.number functions, "Classes:   " ++ Text.number classes]
      ++ ranked)

theorem tallied_reached {moments : List Moment} {w : Workspace}
    (hw : (reached pack moments).workspaces.get? root = some w) :
    w.Tallied ∧ w.index.Balanced := by
  rw [get?_reached] at hw
  split at hw
  · rw [← Option.some.inj hw]
    refine ⟨Workspace.tallied_run rfl ?_, (Workspace.sound_reached ..).balanced⟩
    intro scan hscan
    obtain ⟨m, -, hm⟩ := List.mem_filterMap.mp hscan
    obtain ⟨path, here, -, -, -, rfl⟩ := Moment.scan?_eq_some hm
    exact ⟨{}, rfl⟩
  · cases hw

theorem respond_overview {project : String} (hq : m.request = .workspaceOverview project)
    (hm : m.isFor root = true) :
    (s.respond pack m).1
      = .ok ((s.workspaces.get? root).elim (notIndexed root) (overviewAnswer root)) := by
  obtain ⟨fs, request⟩ := m
  subst hq
  obtain ⟨here, hres, rfl⟩ := Moment.isFor_iff.mp hm
  simp only [Request.place] at hres
  simp only [respond, answer, Traced.value_bind, Traced.value_pure, value_ofWorkspace, hres,
    Except.map]

/-- **The workspaces of a session are isolated, and each is summed up as it is.**  What is answered
about a root is answered alike without the requests about other roots.  The overview of a root shows
how many entries it has, counts by language that come to as many, and how many functions and classes
the entries hold. -/
theorem workspaces_isolated (pack : GrammarPack) (moments : List Moment) (root : String) :
    (transcript {} pack moments).filter (·.1.isFor root)
        = transcript {} pack (moments.filter (·.isFor root)) ∧
      ∀ (now : Moment) (project : String), now.request = .workspaceOverview project →
        now.isFor root = true →
        ∀ w, (reached pack moments).workspaces.get? root = some w →
          ((reached pack moments).respond pack now).1
              = .ok (overviewOf root w.index.files.size w.stats.sortedCounts
                  (w.index.files.total (·.functions.length))
                  (w.index.files.total (·.classes.length)) (rankedLines w)) ∧
            (w.stats.sortedCounts.map Prod.snd).sum = w.index.files.size := by
  have hsettled : Settled pack {} := settled_reached pack []
  refine ⟨Alike.filter_transcript ⟨⟨hsettled, hsettled⟩, rfl⟩ moments, ?_⟩
  intro now project hq hnow w hw
  obtain ⟨htallied, hbalanced⟩ := tallied_reached hw
  constructor
  · rw [respond_overview hq hnow, hw, ← hbalanced.functions, ← hbalanced.classes]
    rfl
  · rw [ScanStats.sum_sortedCounts]
    exact htallied

end

/-- A request that meets a Java file and a Python file below `/ws`. -/
def twoFilesMoment (request : Request) : Moment :=
  ⟨Workspace.javaAndPython, request⟩

/-- Two roots are indexed, one of which has files. -/
def twoRoots : List Moment :=
  [twoFilesMoment (.indexWorkspace "/ws"), twoFilesMoment (.indexWorkspace "/other")]

/-- The workspace of the root that has files. -/
def twoFiles : Workspace :=
  ((opened Workspace.blankPack "/ws").scan Workspace.blankPack Workspace.javaAndPython {}).value.2

theorem get?_twoRoots :
    (reached Workspace.blankPack twoRoots).workspaces.get? "/ws" = some twoFiles := by
  rw [get?_reached]
  rfl

theorem counts_twoFiles :
    twoFiles.index.files.size = 2 ∧ twoFiles.index.files.total (·.functions.length) = 0 ∧
      twoFiles.index.files.total (·.classes.length) = 0 := by
  rw [twoFiles, Workspace.value_scan]
  simp only [opened, Workspace.fresh, Workspace.discover_javaAndPython]
  decide +kernel

/-- Both files below `/ws` show in its overview, although another root has been indexed since. -/
theorem overview_beside_another_root :
    (transcript {} Workspace.blankPack twoRoots).filter (·.1.isFor "/ws")
        = transcript {} Workspace.blankPack [twoFilesMoment (.indexWorkspace "/ws")] ∧
      ((reached Workspace.blankPack twoRoots).respond Workspace.blankPack
          (twoFilesMoment (.workspaceOverview "/ws/."))).1
        = .ok (overviewOf "/ws" 2 twoFiles.stats.sortedCounts 0 0 (rankedLines twoFiles)) ∧
      (twoFiles.stats.sortedCounts.map Prod.snd).sum = 2 := by
  obtain ⟨hsame, hoverview⟩ := workspaces_isolated Workspace.blankPack twoRoots "/ws"
  have hfilter : twoRoots.filter (·.isFor "/ws") = [twoFilesMoment (.indexWorkspace "/ws")] := rfl
  rw [hfilter] at hsame
  obtain ⟨hshown, hsum⟩ := hoverview (twoFilesMoment (.workspaceOverview "/ws/.")) "/ws/." rfl
    (by decide +kernel) twoFiles get?_twoRoots
  obtain ⟨hsize, hfunctions, hclasses⟩ := counts_twoFiles
  rw [hsize] at hshown hsum
  rw [hfunctions, hclasses] at hshown
  exact ⟨hsame, hshown, hsum⟩

end Session

end SourceIndex
