import SourceIndex.CommandLine.Run
import SourceIndex.Proofs.Reports
import SourceIndex.Proofs.Workspace.Scan

/-!
# What commands print

Standard output shows what a command prints and nothing else: building a registry, analysing a file
and scanning a workspace may report to the log, but are silent (`Silent`).  So what a command leaves
there follows from what it comes to (`Leaves`), command by command.
-/

namespace SourceIndex

namespace Traced

variable {α β : Type} {origin : Origin}

/-! ## Silence -/

/-- Nothing is written to standard output. -/
def Silent (x : Traced α) : Prop := Does (fun e => CommandLine.stdoutOf e = "") x

/-- What only reports is silent. -/
theorem ReportsFrom.silent {x : Traced α} (h : ReportsFrom origin x) : Silent x := by
  refine Does.mono h ?_
  intro e he
  cases e with
  | out line => exact he.elim
  | _ => rfl

end Traced

open Traced

namespace Workspace

variable {w : Workspace} {pack : GrammarPack} {fs : FileSystem}

theorem silent_attempt (w : Workspace) (pack : GrammarPack) (fs : FileSystem)
    (path language : String) : Silent (w.attempt pack fs path language) := by
  have hfailed (e : Failure) :
      Silent (reportFailure path language e >>= fun _ => pure (none : Option Analysed)) :=
    ReportsFrom.silent ((reportsFrom_report _ _).bind (fun _ => does_pure _))
  unfold attempt
  cases fs.readSource path with
  | error e => exact hfailed e
  | ok source =>
    refine (reportsFrom_analyzeSource w pack path language source).silent.bind ?_
    intro result
    cases result with
    | ok analysed => exact does_pure _
    | error e => exact hfailed e

theorem silent_results (w : Workspace) (pack : GrammarPack) (fs : FileSystem)
    (conditions : Interleaving) (files : List SourceFile) :
    Silent (w.results pack fs conditions files) := by
  intro e he
  obtain ⟨file, hf⟩ : ∃ file : SourceFile,
      e ∈ (w.attempt pack fs file.path file.language).events := by
    unfold results at he
    split at he
    · obtain ⟨others, -, hperm⟩ := Scan.events_parallel
        (fun file => w.attempt pack fs file.path file.language) conditions files
      obtain ⟨file, -, hf⟩ := List.mem_flatMap.mp (hperm.mem_iff.mp he)
      exact ⟨file, hf⟩
    · rw [Scan.events_sequential] at he
      obtain ⟨file, -, hf⟩ := List.mem_flatMap.mp he
      exact ⟨file, hf⟩
  exact silent_attempt w pack fs file.path file.language e hf

theorem reportsFrom_reportScan (w : Workspace) : ReportsFrom .workspace w.reportScan := by
  have hend : ReportsFrom .workspace
      (if w.stats.seen ≠ 0 ∧ w.stats.indexed = 0 ∧ (!w.stats.cancelled) = true then
        report .warning .workspace ("No files indexed under " ++ w.config.projectRoot)
      else pure ()) := by
    split
    · exact reportsFrom_report _ _
    · exact does_pure _
  unfold reportScan
  dsimp only
  split
  · exact (reportsFrom_report _ _).bind (fun _ => (reportsFrom_report _ _).bind (fun _ => hend))
  · exact (reportsFrom_report _ _).bind (fun _ => hend)

theorem silent_scan [PatternEngine] (w : Workspace) (pack : GrammarPack) (fs : FileSystem)
    (conditions : Interleaving) : Silent (w.scan pack fs conditions) := by
  refine Does.bind (reportsFrom_discover fs w.reset.config).silent ?_
  intro found
  split
  · exact does_pure _
  · exact ReportsFrom.silent ((reportsFrom_report _ _).bind (fun _ => does_pure _))
  · refine Does.bind (Does.bind (silent_results _ _ _ _ _) ?_) (fun _ => does_pure _)
    intro results
    exact (reportsFrom_reportScan _).silent.bind (fun _ => does_pure _)

end Workspace

/-! ## The outline of a file -/

/-- A file has an outline in the language of its suffix, if nothing else is asked for. -/
def World.Outlines (world : World) (path : String) (o : Outline) : Prop :=
  ∃ content language, world.fs.Gives path content ∧ (Path.parse path).language? = some language ∧
    (Analyzer.mk world.pack (Registry.buildDefault world.pack).value false).outline content path
      language = .ok o

/-- A file has an outline in the language that is asked for, or else in that of its suffix. -/
def World.OutlinesIn (world : World) (path : String) (asked : Option String) (o : Outline) : Prop :=
  ∃ content language, world.fs.Gives path content ∧
    Workspace.languageFor asked path = some language ∧
    (Analyzer.mk world.pack (Registry.buildDefault world.pack).value false).outline content path
      language = .ok o

theorem World.Outlines.outlinesIn {world : World} {path : String} {o : Outline}
    (h : world.Outlines path o) : world.OutlinesIn path none o := h

theorem Analyzer.value_analyze?_of_outline {a : Analyzer} {content : Bytes} {path language : String}
    {o : Outline} (h : a.outline content path language = .ok o) :
    (a.analyze? (Source.ofBytes content).text language (Path.parse path).name).value
      = .ok (some o) := by
  have hvalue : (a.analyze (Source.ofBytes content).text language (Path.parse path).name).value
      = .ok o := h
  unfold Analyzer.analyze?
  rw [Traced.value_bind, hvalue]
  rfl

theorem Analyzer.outline_of_value_analyze? {a : Analyzer} {content : Bytes} {path language : String}
    {o : Outline}
    (h : (a.analyze? (Source.ofBytes content).text language (Path.parse path).name).value
      = .ok (some o)) : a.outline content path language = .ok o := by
  unfold Analyzer.outline
  simp only [Analyzer.analyze?, Traced.value_bind] at h
  cases hvalue : (a.analyze (Source.ofBytes content).text language (Path.parse path).name).value with
  | ok found =>
    rw [hvalue] at h
    rw [Option.some.inj (Except.ok.inj h)]
  | error e =>
    rw [hvalue] at h
    cases e <;> cases h

namespace CommandLine

variable {α : Type} {world : World} {path : String} {asked : Option String} {o : Outline}
  {status : Nat} {text : String}

/-! ## What is left on standard output -/

theorem stdout_append (first second : List Event) :
    stdout (first ++ second) = stdout first ++ stdout second := by
  rw [stdout, List.map_append, String.join_append]
  rfl

theorem stdout_of_silent {events : List Event} (h : ∀ e ∈ events, stdoutOf e = "") :
    stdout events = "" := by
  induction events with
  | nil => rfl
  | cons e rest ih =>
    have hrest := ih (fun later hl => h later (List.mem_cons_of_mem e hl))
    rw [stdout, List.map_cons, String.join_cons, h e List.mem_cons_self, String.empty_append]
    exact hrest

/-- A command ends with a status and leaves a text on standard output. -/
structure Leaves (x : Traced (Except Crash Finish)) (status : Nat) (text : String) : Prop where
  value : x.value = .ok (.exit status)
  output : stdout x.events = text

/-- What is done silently before does not show. -/
theorem Leaves.after {x : Traced α} {f : α → Traced (Except Crash Finish)}
    (h : Leaves (f x.value) status text) (hx : Silent x) : Leaves (x >>= f) status text := by
  refine ⟨h.value, ?_⟩
  rw [events_bind, stdout_append, stdout_of_silent hx, String.empty_append]
  exact h.output

theorem leaves_emitAll (lines : List String) (status : Nat) :
    Leaves (do
      emitAll (lines.map .out)
      return .ok (.exit status)) status (String.join (lines.map (· ++ "\n"))) := by
  refine ⟨rfl, ?_⟩
  rw [events_bind, events_emitAll, events_pure, List.append_nil, stdout, List.map_map]
  rfl

theorem leaves_print (line : String) (status : Nat) :
    Leaves (do
      print line
      return .ok (.exit status)) status (line ++ "\n") := by
  have h := leaves_emitAll [line] status
  refine ⟨rfl, h.output.trans ?_⟩
  simp

/-! ## Commands about files -/

/-- A file that has an outline is read, and its analysis can be gone on with. -/
theorem withBuffer_of_outlines (h : world.OutlinesIn path asked o) :
    ∃ (a : Analyzer) (source language : String),
      (a.analyze? source language (Path.parse path).name).value = .ok (some o) ∧
        ∀ go, withBuffer world path asked go
          = Registry.buildDefault world.pack >>= fun _ => go a source language := by
  obtain ⟨content, language, hgives, hlanguage, houtline⟩ := h
  refine ⟨_, _, language, Analyzer.value_analyze?_of_outline houtline, ?_⟩
  intro go
  have hread : readBuffer world path asked
      = pure (.ok (some ((Source.ofBytes content).text, language))) := by
    unfold readBuffer
    rw [hlanguage, hgives.readSource]
  unfold withBuffer
  rw [hread, pure_bind]
  rfl

theorem leaves_withBuffer {go : Analyzer → String → String → Traced (Except Crash Finish)}
    (h : world.OutlinesIn path asked o)
    (hgo : ∀ (a : Analyzer) (source language : String),
      (a.analyze? source language (Path.parse path).name).value = .ok (some o) →
        Leaves (go a source language) status text) :
    Leaves (withBuffer world path asked go) status text := by
  obtain ⟨a, source, language, hvalue, heq⟩ := withBuffer_of_outlines h
  rw [heq]
  exact Leaves.after (hgo a source language hvalue) (reportsFrom_buildDefault world.pack).silent

theorem leaves_runOutline (h : world.OutlinesIn path asked o) :
    Leaves (runOutline world path asked true) 0 (o.toJson.pretty ++ "\n") := by
  refine leaves_withBuffer h ?_
  intro a source language hvalue
  refine Leaves.after ?_ (reportsFrom_analyze? _ _ _ _).silent
  rw [hvalue]
  exact leaves_print _ 0

/-- The status of a look for the function around a line. -/
def lookStatus (found : Option FunctionInfo) : Nat := if found.isSome then 0 else 1

/-- What is printed about the place of a line, as JSON or in words. -/
def lookText (line : Int) (found : Enclosing) : Bool → String
  | true => found.toJson.pretty ++ "\n"
  | false => stdout (printEnclosing (some line) found).events

theorem locate_of_outline {a : Analyzer} {source language fileName : String}
    (h : (a.analyze? source language fileName).value = .ok (some o)) (line : Int) :
    (locate a source (some line) language fileName).value = .ok (some ⟨o.enclosing? line, o⟩) ∧
      Silent (locate a source (some line) language fileName) := by
  have hvalue : (a.enclosing? source line language fileName).value
      = .ok (some ⟨o.enclosing? line, o⟩) := by
    rw [Analyzer.enclosing?, Traced.value_bind, h]
    rfl
  have hsilent : Silent (a.enclosing? source line language fileName) :=
    (reportsFrom_analyze? _ _ _ _).silent.bind (fun _ => does_pure _)
  constructor
  · simp only [locate, Traced.value_bind, hvalue, Traced.value_pure]
  · refine hsilent.bind ?_
    intro result
    split
    · exact does_pure _
    · exact does_pure _

theorem leaves_runAtLine (h : world.Outlines path o) (line : Int) (json : Bool) :
    Leaves (runAtLine world path (some line) none json) (lookStatus (o.enclosing? line))
      (lookText line ⟨o.enclosing? line, o⟩ json) := by
  refine leaves_withBuffer h.outlinesIn ?_
  intro a source language hvalue
  obtain ⟨hfound, hsilent⟩ := locate_of_outline hvalue line
  refine Leaves.after ?_ hsilent
  rw [hfound]
  cases json with
  | true => exact leaves_print _ _
  | false => exact ⟨rfl, congrArg stdout (List.append_nil _)⟩

/-! ## Looking for functions -/

variable {pack : GrammarPack} {fs : FileSystem} {root : String}

theorem leaves_withRoot {go : World → String → Traced (Except Crash Finish)} {here : Location}
    (hr : fs.resolve (Path.parse root) = .ok here)
    (h : Leaves (go ⟨pack, fs.looked here⟩ here.text) status text) :
    Leaves (withRoot ⟨pack, fs⟩ root go) status text := by
  have hglance : ReportsFrom .discovery (fs.glance here) := reportsFrom_glance fs here
  unfold withRoot
  simp only [hr]
  exact h.after hglance.silent

theorem leaves_runFind [PatternEngine] {w : Workspace} (name : String)
    (h : ((Workspace.fresh { projectRoot := root } (Registry.buildDefault pack).value).scan pack fs
      {}).value = (.ok (), w)) :
    Leaves (runFind ⟨pack, fs⟩ name root) (if w.index.locations name = [] then 1 else 0)
      (if w.index.locations name = [] then "Function not found: " ++ name ++ "\n"
        else String.join ((w.index.locations name).map (fun p => placeLine p ++ "\n"))) := by
  have hopen : Silent (openWorkspace ⟨pack, fs⟩ { projectRoot := root }) :=
    (reportsFrom_buildDefault pack).silent.bind (fun _ => does_pure _)
  refine Leaves.after ?_ hopen
  refine Leaves.after ?_ (Workspace.silent_scan _ _ _ _)
  simp only [openWorkspace, Traced.value_bind, Traced.value_pure, h]
  cases hplaces : w.index.locations name with
  | nil => exact leaves_print _ 1
  | cons first rest =>
    have hall := leaves_emitAll ((first :: rest).map placeLine) 0
    rw [List.map_map, List.map_map] at hall
    exact hall

end CommandLine

end SourceIndex
