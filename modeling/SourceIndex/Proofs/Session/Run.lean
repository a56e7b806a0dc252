import SourceIndex.Proofs.Workspace.Run
import SourceIndex.Session

/-!
# Runs of a session

As in the runs of a workspace, every moment of a session brings the file system of its own, so that
anything may be written, deleted or made unreadable between two requests.

A session keeps many workspaces in one table, and some requests open a workspace on the way.  Two
facts take the table apart again.

* A request for one root changes what is kept for that root and nothing else (`get?_respond`).
* So **what a session keeps for a root is a run of scans of that root's own workspace**, one for each
  time that it was to be indexed (`get?_reached`).  There is nothing if no request has opened it.

What is answered depends on what is kept for the root that is asked about, and on nothing else of the
session (`answer_respond_congr`).
-/

namespace SourceIndex

/-! ## Requests and their roots -/

/-- The path that a request is about: that of a workspace or of a file, or of the project whose
workspace is asked. -/
def Request.place : Request → String
  | indexWorkspace path => path
  | analyzeFile path _ => path
  | findFunction _ project => project
  | enclosingFunction _ _ project => project
  | workspaceOverview project => project

/-- Whether a request makes the index of a workspace. -/
def Request.indexes : Request → Bool
  | indexWorkspace _ => true
  | _ => false

/-- Whether a request is for the function around a line, and is accepted. -/
def Request.asksEnclosing : Request → Bool
  | enclosingFunction _ line _ => Text.isReadable line
  | _ => false

namespace Session

/-- A request, and the file system that it meets. -/
structure Moment where
  fs : FileSystem
  request : Request

namespace Moment

/-- The resolved path that a request is about; none if its path can name nothing. -/
def root? (m : Moment) : Option String :=
  match m.fs.resolve (Path.parse m.request.place) with
  | .ok here => some here.text
  | .error _ => none

/-- Whether a request is about a root, however it spells it. -/
def isFor (root : String) (m : Moment) : Bool := m.root? == some root

/-- Whether a request makes the index of a root. -/
def indexes (root : String) (m : Moment) : Bool := m.isFor root && m.request.indexes

/-- Whether a request is for the function around a line, and is accepted with a root as its
project. -/
def asksEnclosing (root : String) (m : Moment) : Bool := m.isFor root && m.request.asksEnclosing

/-- Whether a request needs the workspace of a root, and so opens it. -/
def opens (root : String) (m : Moment) : Bool := m.indexes root || m.asksEnclosing root

/-- The scan that a request comes to for the workspace of a root. -/
def scan? (root : String) (m : Moment) : Option Workspace.Moment :=
  match m.request with
  | .indexWorkspace path =>
    match m.fs.resolve (Path.parse path) with
    | .ok here =>
      if here.text = root then some ⟨m.fs.looked here, .scan {}⟩ else none
    | .error _ => none
  | _ => none

end Moment

/-! ## Runs -/

/-- The answer to a request, and the session that it leaves. -/
def respond [PatternEngine] (s : Session) (pack : GrammarPack) (m : Moment) :
    Except Failure String × Session :=
  (s.answer ⟨pack, m.fs⟩ m.request).value

/-- The session that a run leaves. -/
def run [PatternEngine] (s : Session) (pack : GrammarPack) (moments : List Moment) : Session :=
  moments.foldl (fun s m => (s.respond pack m).2) s

/-- The session that is reached by a run from the beginning. -/
def reached [PatternEngine] (pack : GrammarPack) (moments : List Moment) : Session :=
  run {} pack moments

/-- The registry that all workspaces of a session share. -/
def sharedRegistry (pack : GrammarPack) : Registry := (Registry.buildDefault pack).value

/-- The workspace that is opened for a root. -/
def opened (pack : GrammarPack) (root : String) : Workspace :=
  Workspace.fresh { projectRoot := root } (sharedRegistry pack)

/-- If the registry has been built, it is the shared one. -/
def Settled (pack : GrammarPack) (s : Session) : Prop :=
  ∀ r, s.registry = some r → r = sharedRegistry pack

variable {pack : GrammarPack} {s t : Session} {m : Moment} {root : String} {fs : FileSystem}

/-! ## What a request is about -/

theorem Moment.isFor_iff : m.isFor root = true ↔
    ∃ here, m.fs.resolve (Path.parse m.request.place) = .ok here ∧ here.text = root := by
  unfold isFor root?
  cases m.fs.resolve (Path.parse m.request.place) with
  | error e => simp
  | ok here => simp

theorem Moment.opens_of_ok (m : Moment) (root : String) {here : Location}
    (hr : m.fs.resolve (Path.parse m.request.place) = .ok here) :
    m.opens root = (decide (root = here.text) && (m.request.indexes || m.request.asksEnclosing)) := by
  have hfor : m.isFor root = decide (root = here.text) := by
    simp only [isFor, root?, hr, Option.some_beq_some, eq_comm (a := root)]
    rfl
  rw [opens, indexes, asksEnclosing, hfor, ← Bool.and_or_distrib_left]

theorem Moment.opens_of_error (m : Moment) (root : String) {e : Failure}
    (hr : m.fs.resolve (Path.parse m.request.place) = .error e) : m.opens root = false := by
  simp [opens, indexes, asksEnclosing, isFor, root?, hr]

/-- Only a request for the index of a root scans it. -/
theorem Moment.scan?_eq_some {scan : Workspace.Moment} (h : m.scan? root = some scan) :
    ∃ path here, m.request = .indexWorkspace path ∧ m.fs.resolve (Path.parse path) = .ok here ∧
      here.text = root ∧ scan = ⟨m.fs.looked here, .scan {}⟩ := by
  unfold scan? at h
  split at h
  · next path hq =>
    split at h
    · next here hr =>
      split at h
      · next he => exact ⟨path, here, hq, hr, he, (Option.some.inj h).symm⟩
      · cases h
    · cases h
  · cases h

theorem Moment.scan?_of_closed (h : m.opens root = false) : m.scan? root = none := by
  refine Option.eq_none_iff_forall_ne_some.mpr ?_
  intro scan hscan
  obtain ⟨path, here, hq, hr, rfl, -⟩ := scan?_eq_some hscan
  rw [opens_of_ok m here.text (by rw [hq]; exact hr), hq] at h
  simp [Request.indexes] at h

theorem filterMap_scan?_of_closed {moments : List Moment}
    (h : moments.any (·.opens root) = false) : moments.filterMap (·.scan? root) = [] := by
  rw [List.filterMap_eq_nil_iff]
  intro m hm
  refine Moment.scan?_of_closed ?_
  simpa using List.any_eq_false.mp h m hm

/-! ## What is needed on the way -/

theorem Settled.needRegistry (h : s.Settled pack) (fs : FileSystem) :
    (s.needRegistry ⟨pack, fs⟩).value.1 = sharedRegistry pack ∧
      (s.needRegistry ⟨pack, fs⟩).value.2.Settled pack ∧
      (s.needRegistry ⟨pack, fs⟩).value.2.workspaces = s.workspaces := by
  unfold Session.needRegistry
  cases hr : s.registry with
  | some r => exact ⟨h r hr, h, rfl⟩
  | none =>
    simp only [Traced.value_bind, Traced.value_pure, sharedRegistry, true_and, and_true]
    intro r he
    exact (Option.some.inj he).symm

theorem Settled.needWorkspace (h : s.Settled pack) (fs : FileSystem) (root : String) :
    (s.needWorkspace ⟨pack, fs⟩ root).value.1 = (s.workspaces.get? root).getD (opened pack root) ∧
      (s.needWorkspace ⟨pack, fs⟩ root).value.2.Settled pack ∧
      ∀ there, (s.needWorkspace ⟨pack, fs⟩ root).value.2.workspaces.get? there =
        if there = root then some ((s.workspaces.get? root).getD (opened pack root))
        else s.workspaces.get? there := by
  obtain ⟨hregistry, hsettled, hsame⟩ := h.needRegistry fs
  unfold Session.needWorkspace
  cases hw : s.workspaces.get? root with
  | some w =>
    refine ⟨rfl, h, ?_⟩
    intro there
    by_cases ht : there = root
    · simp [ht, hw]
    · simp [ht]
  | none =>
    simp only [Traced.value_bind, Traced.value_pure, hregistry, hsame, Option.getD_none]
    refine ⟨rfl, hsettled, ?_⟩
    intro there
    rw [OrderedMap.get?_insert]
    rfl

/-! ## What one request does -/

theorem Settled.analyzeFile (h : s.Settled pack) (fs : FileSystem) (path language : String) :
    (s.analyzeFile ⟨pack, fs⟩ path language).value.2.Settled pack ∧
      (s.analyzeFile ⟨pack, fs⟩ path language).value.2.workspaces = s.workspaces := by
  obtain ⟨-, hsettled, hsame⟩ := h.needRegistry fs
  unfold Session.analyzeFile
  split
  · exact ⟨h, rfl⟩
  · split
    · exact ⟨h, rfl⟩
    · simp only [Traced.value_bind]
      split <;> exact ⟨hsettled, hsame⟩

/-- The outline of a file is answered with the shared registry. -/
theorem Settled.answer_analyzeFile (hs : s.Settled pack) (ht : t.Settled pack) (fs : FileSystem)
    (path language : String) :
    (s.analyzeFile ⟨pack, fs⟩ path language).value.1
      = (t.analyzeFile ⟨pack, fs⟩ path language).value.1 := by
  unfold Session.analyzeFile
  split
  · rfl
  · split
    · rfl
    · simp only [Traced.value_bind, (hs.needRegistry fs).1, (ht.needRegistry fs).1]
      split <;> rfl

theorem value_ofWorkspace (project : String) (answer : String → Workspace → String) :
    (s.ofWorkspace ⟨pack, fs⟩ project answer).value =
      (fs.resolve (Path.parse project)).map (fun here =>
        (s.workspaces.get? here.text).elim (notIndexed here.text) (answer here.text)) := by
  unfold ofWorkspace
  cases fs.resolve (Path.parse project) with
  | error e => rfl
  | ok here =>
    simp only [Traced.value_bind, Except.map]
    cases s.workspaces.get? here.text <;> rfl

theorem Settled.enclosingFunction (h : s.Settled pack) {project : String} {here : Location}
    (hr : fs.resolve (Path.parse project) = .ok here) (path : String) (line : Int) :
    (s.enclosingFunction ⟨pack, fs⟩ path line project).value.2
        = (s.needWorkspace ⟨pack, fs⟩ here.text).value.2 ∧
      (s.enclosingFunction ⟨pack, fs⟩ path line project).value.1 =
        (((s.workspaces.get? here.text).getD (opened pack here.text)).enclosing? pack fs path
          line).value.map (fun found => found.elim
            ("No function encloses " ++ path ++ ":" ++ Text.number line) (·.toJson.pretty)) := by
  have hneed := (h.needWorkspace fs here.text).1
  unfold Session.enclosingFunction
  simp only [hr, Traced.value_bind, hneed]
  cases (((s.workspaces.get? here.text).getD (opened pack here.text)).enclosing? pack fs path
    line).value with
  | error e => exact ⟨rfl, rfl⟩
  | ok found => cases found <;> exact ⟨rfl, rfl⟩

section

variable [PatternEngine]

theorem Settled.indexWorkspace (h : s.Settled pack) {path : String} {here : Location}
    (hr : fs.resolve (Path.parse path) = .ok here) :
    (s.indexWorkspace ⟨pack, fs⟩ path).value.2.Settled pack ∧
      (∀ root, (s.indexWorkspace ⟨pack, fs⟩ path).value.2.workspaces.get? root =
        if root = here.text then
          some (((s.workspaces.get? root).getD (opened pack root)).scan pack (fs.looked here)
            {}).value.2
        else s.workspaces.get? root) ∧
      (s.indexWorkspace ⟨pack, fs⟩ path).value.1 =
        (((s.workspaces.get? here.text).getD (opened pack here.text)).scan pack (fs.looked here)
          {}).value.1.map (fun _ =>
            scanAnswer (((s.workspaces.get? here.text).getD (opened pack here.text)).scan pack
              (fs.looked here) {}).value.2) := by
  obtain ⟨hneed, hsettled, hget⟩ := h.needWorkspace fs here.text
  unfold Session.indexWorkspace
  simp only [hr, Traced.value_bind, Traced.value_pure, hneed, and_true]
  refine ⟨hsettled, ?_⟩
  intro root
  rw [OrderedMap.get?_insert, hget]
  by_cases he : root = here.text
  · simp [he]
  · simp [he]

theorem respond_of_readable {path project : String} {line : Int}
    (h : Text.isReadable line = true) :
    s.respond pack ⟨fs, .enclosingFunction path line project⟩
      = (s.enclosingFunction ⟨pack, fs⟩ path line project).value := by
  rw [Session.respond, answer, if_pos h]

/-- A request with a line that cannot be written leaves the session as it is. -/
theorem respond_of_unreadable {path project : String} {line : Int}
    (h : Text.isReadable line = false) :
    s.respond pack ⟨fs, .enclosingFunction path line project⟩ = (.error .tooManyDigits, s) := by
  rw [Session.respond, answer, if_neg (by simp [h]), Traced.value_pure]

/-- A request that names no workspace leaves the session as it is. -/
theorem respond_of_error (s : Session) (pack : GrammarPack) (m : Moment) {e : Failure}
    (ho : (m.request.indexes || m.request.asksEnclosing) = true)
    (hr : m.fs.resolve (Path.parse m.request.place) = .error e) :
    s.respond pack m = (.error e, s) := by
  obtain ⟨fs, request⟩ := m
  cases request with
  | indexWorkspace path =>
    simp only [Request.place] at hr
    simp only [Session.respond, answer, Session.indexWorkspace, hr, Traced.value_pure]
  | enclosingFunction path line project =>
    simp only [Request.place] at hr
    rw [respond_of_readable ho]
    simp only [Session.enclosingFunction, hr, Traced.value_pure]
  | analyzeFile path language => cases ho
  | findFunction name project => cases ho
  | workspaceOverview project => cases ho

/-- A request that opens no workspace leaves the table as it is. -/
theorem Settled.respond_of_closed (h : s.Settled pack)
    (ho : (m.request.indexes || m.request.asksEnclosing) = false) :
    (s.respond pack m).2.Settled pack ∧ (s.respond pack m).2.workspaces = s.workspaces := by
  obtain ⟨fs, request⟩ := m
  cases request with
  | indexWorkspace path => cases ho
  | enclosingFunction path line project =>
    rw [respond_of_unreadable ho]
    exact ⟨h, rfl⟩
  | analyzeFile path language => exact h.analyzeFile fs path language
  | findFunction name project => exact ⟨h, rfl⟩
  | workspaceOverview project => exact ⟨h, rfl⟩

/-- **A request changes what is kept for the root that it opens**, and nothing else. -/
theorem Settled.respond (h : s.Settled pack) (m : Moment) :
    (s.respond pack m).2.Settled pack ∧
      ∀ root, (s.respond pack m).2.workspaces.get? root =
        if m.opens root then
          some (((s.workspaces.get? root).getD (opened pack root)).run pack (m.scan? root).toList)
        else s.workspaces.get? root := by
  cases ho : m.request.indexes || m.request.asksEnclosing with
  | false =>
    obtain ⟨hsettled, hsame⟩ := h.respond_of_closed ho
    refine ⟨hsettled, ?_⟩
    intro root
    rw [hsame, Moment.opens, Moment.indexes, Moment.asksEnclosing, ← Bool.and_or_distrib_left, ho,
      Bool.and_false]
    rfl
  | true =>
    obtain ⟨fs, request⟩ := m
    cases hr : fs.resolve (Path.parse request.place) with
    | error e =>
      rw [respond_of_error s pack ⟨fs, request⟩ ho hr]
      refine ⟨h, ?_⟩
      intro root
      rw [Moment.opens_of_error ⟨fs, request⟩ root hr]
      rfl
    | ok here =>
      have hopens (root : String) :
          (Moment.mk fs request).opens root = decide (root = here.text) := by
        rw [Moment.opens_of_ok ⟨fs, request⟩ root hr, ho, Bool.and_true]
      cases request with
      | indexWorkspace path =>
        simp only [Request.place] at hr
        obtain ⟨hsettled, hget, -⟩ := h.indexWorkspace hr
        refine ⟨hsettled, ?_⟩
        intro root
        simp only [Session.respond, answer, hopens, hget]
        by_cases he : root = here.text
        · simp [he, Moment.scan?, hr, Workspace.run, Workspace.perform]
        · simp [he]
      | enclosingFunction path line project =>
        simp only [Request.place] at hr
        obtain ⟨-, hsettled, hget⟩ := h.needWorkspace fs here.text
        have hafter := (h.enclosingFunction hr path line).1
        simp only [respond_of_readable ho, hafter, hopens, hget]
        refine ⟨hsettled, ?_⟩
        intro root
        by_cases he : root = here.text
        · simp [he, Moment.scan?, Workspace.run]
        · simp [he]
      | analyzeFile path language => cases ho
      | findFunction name project => cases ho
      | workspaceOverview project => cases ho

/-! ## What a run keeps -/

theorem Settled.run (h : s.Settled pack) (moments : List Moment) :
    (s.run pack moments).Settled pack := by
  induction moments generalizing s with
  | nil => exact h
  | cons m rest ih => exact ih (h.respond m).1

theorem settled_reached (pack : GrammarPack) (moments : List Moment) :
    (reached pack moments).Settled pack := by
  have h : Settled pack {} := by
    intro r hr
    cases hr
  exact h.run moments

theorem Settled.get?_run (h : s.Settled pack) (moments : List Moment) (root : String) :
    (s.run pack moments).workspaces.get? root =
      if moments.any (·.opens root) then
        some (((s.workspaces.get? root).getD (opened pack root)).run pack
          (moments.filterMap (·.scan? root)))
      else s.workspaces.get? root := by
  induction moments generalizing s with
  | nil => rfl
  | cons m rest ih =>
    obtain ⟨hsettled, hget⟩ := h.respond m
    have hrest := ih hsettled
    rw [hget] at hrest
    refine hrest.trans ?_
    have hscans : (m :: rest).filterMap (·.scan? root)
        = (m.scan? root).toList ++ rest.filterMap (·.scan? root) := by
      cases hm : m.scan? root with
      | none => exact List.filterMap_cons_none hm
      | some scan => exact List.filterMap_cons_some hm
    rw [List.any_cons, hscans, Workspace.run_append]
    cases hm : m.opens root with
    | false => simp [Moment.scan?_of_closed hm, Workspace.run]
    | true =>
      cases ha : rest.any (·.opens root) with
      | true => simp
      | false => simp [filterMap_scan?_of_closed ha, Workspace.run]

/-- **What a session keeps for a root is a run of scans of the root's own workspace.** -/
theorem get?_reached (pack : GrammarPack) (moments : List Moment) (root : String) :
    (reached pack moments).workspaces.get? root =
      if moments.any (·.opens root) then
        some (Workspace.reached pack { projectRoot := root } (sharedRegistry pack)
          (moments.filterMap (·.scan? root)))
      else none := by
  have h : Settled pack {} := by
    intro r hr
    cases hr
  exact h.get?_run moments root

/-! ## What is answered -/

/-- **An answer depends on what is kept for the root that is asked about**, and on nothing else. -/
theorem answer_respond_congr (hs : s.Settled pack) (ht : t.Settled pack)
    (h : ∀ root, m.root? = some root → s.workspaces.get? root = t.workspaces.get? root) :
    (s.respond pack m).1 = (t.respond pack m).1 := by
  obtain ⟨fs, request⟩ := m
  have hsame {here : Location} (hr : fs.resolve (Path.parse request.place) = .ok here) :
      s.workspaces.get? here.text = t.workspaces.get? here.text := by
    refine h here.text ?_
    simp only [Moment.root?, hr]
  cases request with
  | analyzeFile path language => exact hs.answer_analyzeFile ht fs path language
  | findFunction name project =>
    simp only [Session.respond, answer, Traced.value_bind, Traced.value_pure, value_ofWorkspace]
    cases hr : fs.resolve (Path.parse project) with
    | error e => rfl
    | ok here => simp only [Except.map, hsame hr]
  | workspaceOverview project =>
    simp only [Session.respond, answer, Traced.value_bind, Traced.value_pure, value_ofWorkspace]
    cases hr : fs.resolve (Path.parse project) with
    | error e => rfl
    | ok here => simp only [Except.map, hsame hr]
  | enclosingFunction path line project =>
    cases hline : Text.isReadable line with
    | false => rw [respond_of_unreadable hline, respond_of_unreadable hline]
    | true =>
      cases hr : fs.resolve (Path.parse project) with
      | error e =>
        rw [respond_of_error s pack ⟨fs, .enclosingFunction path line project⟩ hline hr,
          respond_of_error t pack ⟨fs, .enclosingFunction path line project⟩ hline hr]
      | ok here =>
        simp only [respond_of_readable hline, (hs.enclosingFunction hr path line).2,
          (ht.enclosingFunction hr path line).2, hsame hr]
  | indexWorkspace path =>
    cases hr : fs.resolve (Path.parse path) with
    | error e =>
      rw [respond_of_error s pack ⟨fs, .indexWorkspace path⟩ rfl hr,
        respond_of_error t pack ⟨fs, .indexWorkspace path⟩ rfl hr]
    | ok here =>
      simp only [Session.respond, answer, (hs.indexWorkspace hr).2.2, (ht.indexWorkspace hr).2.2,
        hsame hr]

end

end Session

end SourceIndex
