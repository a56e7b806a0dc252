import SourceIndex.Workspace.Scan

/-!
# What is reported, and by which part of the program

Each part of the program reports under its own name, and leaves the console alone (`ReportsFrom`):
the building of a registry (`reportsFrom_buildDefault`), the making of outlines
(`reportsFrom_analyze`), discovery (`reportsFrom_discover`), and the workspace.  So the reports of
files that were left out of an index can be told from all others, and **attempting a file gives one
such report if it fails, and none if it does not** (`length_failureReports_attempt`).
-/

namespace SourceIndex

namespace Traced

variable {α β : Type} {sort other : Event → Prop}

/-- All that is done on the way to a value is of one sort. -/
def Does (sort : Event → Prop) (x : Traced α) : Prop := ∀ e ∈ x.events, sort e

theorem does_pure (a : α) : Does sort (pure a) := nofun

theorem Does.bind {x : Traced α} {f : α → Traced β} (hx : Does sort x)
    (hf : ∀ a, Does sort (f a)) : Does sort (x >>= f) := by
  intro e he
  rw [events_bind, List.mem_append] at he
  rcases he with he | he
  · exact hx e he
  · exact hf x.value e he

theorem does_emit {e : Event} (h : sort e) : Does sort (emit e) := by
  intro found hf
  rw [List.mem_singleton.mp hf]
  exact h

theorem Does.mono {x : Traced α} (h : Does sort x) (hs : ∀ e, sort e → other e) : Does other x :=
  fun e he => hs e (h e he)

end Traced

/-- An event is a report from one part of the program, or at least does not write to the console. -/
def Event.IsFrom (origin : Origin) : Event → Prop
  | .log m => m.origin = origin
  | .out _ => False
  | .err _ => False
  | _ => True

theorem Event.IsFrom.origin_eq {origin : Origin} {e : Event} {m : Message} (h : e.IsFrom origin)
    (hm : e.message? = some m) : m.origin = origin := by
  cases e with
  | log found =>
    obtain rfl := Option.some.inj hm
    exact h
  | _ => cases hm

namespace Traced

variable {α : Type} {origin : Origin}

/-- All messages come from one part of the program, and nothing is written to the console. -/
def ReportsFrom (origin : Origin) (x : Traced α) : Prop := Does (Event.IsFrom origin) x

theorem reportsFrom_report (level : Level) (text : String) :
    ReportsFrom origin (report level origin text) :=
  does_emit rfl

end Traced

open Traced

/-! ## Registries -/

theorem reportsFrom_load (d : Registry.Draft) (pack : GrammarPack) (grammar : String) :
    ReportsFrom .registry (d.load pack grammar) := by
  unfold Registry.Draft.load
  split
  · exact does_pure _
  · refine (does_emit trivial).bind (fun _ => ?_)
    split
    · exact does_pure _
    · exact (reportsFrom_report _ _).bind (fun _ => does_pure _)

theorem reportsFrom_register (r : Registry) (language grammar : String) :
    ReportsFrom .registry (r.register language grammar) := by
  unfold Registry.register
  split
  · exact does_pure _
  · exact (reportsFrom_report _ _).bind (fun _ => does_pure _)

theorem reportsFrom_add (d : Registry.Draft) (pack : GrammarPack) (language grammar : String) :
    ReportsFrom .registry (d.add pack language grammar) := by
  refine (reportsFrom_load d pack grammar).bind (fun loaded => ?_)
  dsimp only
  split
  · refine (reportsFrom_register _ _ _).bind (fun registered => ?_)
    split
    · exact does_pure _
    · exact (reportsFrom_report _ _).bind (fun _ => does_pure _)
  · exact does_pure _

theorem reportsFrom_addAll (pack : GrammarPack) (mapping : List (String × String))
    (d : Registry.Draft) : ReportsFrom .registry (Registry.Draft.addAll pack mapping d) := by
  induction mapping generalizing d with
  | nil => exact does_pure _
  | cons entry rest ih =>
    obtain ⟨language, grammar⟩ := entry
    exact (reportsFrom_add d pack language grammar).bind ih

/-- Building a registry reports under its own name. -/
theorem reportsFrom_buildDefault (pack : GrammarPack) :
    ReportsFrom .registry (Registry.buildDefault pack) :=
  (reportsFrom_addAll pack _ _).bind (fun _ => does_pure _)

/-! ## Outlines -/

theorem reportsFrom_extract (table : LanguageTable) (source : Bytes) (language fileName : String)
    (t : Tree) : ReportsFrom .outline (Outline.extract table source language fileName t) := by
  refine Does.bind ?_ (fun _ => does_pure _)
  intro e he
  obtain ⟨node, -, hd⟩ := List.mem_filterMap.mp he
  unfold Tree.droppedFunction? at hd
  split at hd
  · obtain rfl := Option.some.inj hd
    rfl
  · cases hd

theorem reportsFrom_analyze (a : Analyzer) (text language fileName : String) :
    ReportsFrom .outline (a.analyze text language fileName) := by
  have hparse (source : Bytes) : ReportsFrom .outline (a.parse source language) := by
    unfold Analyzer.parse
    split
    · exact does_pure _
    · exact (does_emit trivial).bind (fun _ => does_pure _)
  unfold Analyzer.analyze
  split
  · exact does_pure _
  · refine (hparse _).bind ?_
    intro parsed
    split
    · exact does_pure _
    · exact (reportsFrom_extract _ _ _ _ _).bind (fun _ => does_pure _)

theorem reportsFrom_analyze? (a : Analyzer) (text language fileName : String) :
    ReportsFrom .outline (a.analyze? text language fileName) := by
  refine (reportsFrom_analyze a text language fileName).bind (fun result => ?_)
  split
  · exact does_pure _
  · exact (reportsFrom_report _ _).bind (fun _ => does_pure _)
  · exact (reportsFrom_report _ _).bind (fun _ => does_pure _)
  · exact does_pure _

/-! ## Discovery -/

theorem reportsFrom_glance {origin : Origin} (fs : FileSystem) (here : Location) :
    ReportsFrom origin (fs.glance here) := by
  unfold FileSystem.glance
  split
  · exact does_emit trivial
  · exact does_pure _

section

open PatternEngine (usable compileUsable)

variable [PatternEngine]

theorem reportsFrom_usable (origin : String) (lines : List String) :
    ReportsFrom .discovery (usable origin lines) := by
  induction lines with
  | nil => exact does_pure _
  | cons line rest ih =>
    unfold usable
    split
    · exact does_pure _
    · exact (reportsFrom_report _ _).bind (fun _ => ih)
    · exact ih.bind (fun _ => does_pure _)

theorem reportsFrom_compileUsable (origin : String) (lines : List String) :
    ReportsFrom .discovery (compileUsable origin lines) := by
  unfold compileUsable
  split
  · exact does_pure _
  · exact does_pure _
  · refine (reportsFrom_usable origin lines).bind (fun kept => ?_)
    split
    · exact does_pure _
    · exact does_pure _

theorem reportsFrom_gitignoreSpec (fs : FileSystem) (root : Location) :
    ReportsFrom .discovery (Discovery.gitignoreSpec fs root) := by
  refine (reportsFrom_glance fs _).bind (fun _ => ?_)
  split
  · exact does_pure _
  · split
    · exact (reportsFrom_report _ _).bind (fun _ => does_pure _)
    · exact (reportsFrom_compileUsable _ _).bind (fun _ => does_pure _)

omit [PatternEngine] in
theorem reportsFrom_list (fs : FileSystem) (root : Location) :
    ReportsFrom .discovery (Discovery.list fs root) := by
  refine (reportsFrom_glance fs root).bind (fun _ => ?_)
  split
  · exact does_pure _
  · refine Does.bind ?_ (fun _ => does_pure _)
    intro e he
    obtain ⟨here, -, rfl⟩ := List.mem_map.mp he
    trivial

theorem reportsFrom_search (fs : FileSystem) (s : Discovery.Screen) :
    ReportsFrom .discovery (Discovery.search fs s) := by
  unfold Discovery.search
  split
  · exact does_pure _
  · refine (reportsFrom_list fs s.root).bind (fun files => ?_)
    refine Does.bind ?_ (fun _ => (reportsFrom_report _ _).bind (fun _ => does_pure _))
    intro e he
    obtain ⟨file, -, hr⟩ := List.mem_flatMap.mp he
    unfold Discovery.Screen.report at hr
    split at hr
    · rcases List.mem_cons.mp hr with rfl | hr
      · trivial
      · obtain rfl := List.mem_singleton.mp hr
        rfl
    · obtain rfl := List.mem_singleton.mp hr
      rfl
    · cases hr

theorem reportsFrom_below (fs : FileSystem) (config : Config) (root : Location) :
    ReportsFrom .discovery (Discovery.below fs config root) := by
  refine (reportsFrom_compileUsable _ _).bind (fun exclude => ?_)
  cases exclude with
  | error e => exact does_pure _
  | ok exclude =>
    dsimp only
    split
    · refine (reportsFrom_gitignoreSpec fs root).bind (fun gitignore => ?_)
      cases gitignore with
      | error e => exact does_pure _
      | ok gitignore => exact reportsFrom_search fs _
    · rw [pure_bind]
      exact reportsFrom_search fs _

/-- Discovery reports under its own name. -/
theorem reportsFrom_discover (fs : FileSystem) (config : Config) :
    ReportsFrom .discovery (discover fs config) := by
  unfold discover
  split
  · exact does_pure _
  · refine (reportsFrom_glance fs _).bind (fun _ => (reportsFrom_glance _ _).bind (fun _ => ?_))
    split
    · exact (reportsFrom_report _ _).bind (fun _ => does_pure _)
    · exact reportsFrom_below _ _ _

end

/-! ## Files that were left out -/

/-- Whether a message tells that a file was left out of an index. -/
def Message.tellsFailure (m : Message) : Bool :=
  m.level == .warning && m.origin == .workspace &&
    ("Skipping ".toList.isPrefixOf m.text.toList
      || "Extraction error in ".toList.isPrefixOf m.text.toList)

namespace Traced

variable {α β : Type} {origin : Origin}

@[simp] theorem messages_bind (x : Traced α) (f : α → Traced β) :
    (x >>= f).messages = x.messages ++ (f x.value).messages := by
  simp [messages]

/-- The messages that tell of files that were left out. -/
def failureReports (x : Traced α) : List Message := x.messages.filter Message.tellsFailure

@[simp] theorem failureReports_pure (a : α) : (pure a : Traced α).failureReports = [] := rfl

@[simp] theorem failureReports_bind (x : Traced α) (f : α → Traced β) :
    (x >>= f).failureReports = x.failureReports ++ (f x.value).failureReports := by
  simp [failureReports]

/-- Only the workspace tells of files that were left out. -/
theorem ReportsFrom.failureReports {x : Traced α} (h : ReportsFrom origin x)
    (ho : origin ≠ .workspace) : x.failureReports = [] := by
  refine List.filter_eq_nil_iff.mpr ?_
  intro m hm
  obtain ⟨e, he, hmessage⟩ := List.mem_filterMap.mp hm
  have hne : m.origin ≠ .workspace := (h e he).origin_eq hmessage ▸ ho
  simp [Message.tellsFailure, hne]

end Traced

namespace Workspace

variable {w : Workspace} {pack : GrammarPack} {fs : FileSystem}

theorem reportsFrom_analyzeSource (w : Workspace) (pack : GrammarPack) (path language : String)
    (source : Source) : ReportsFrom .outline (w.analyzeSource pack path language source) :=
  (reportsFrom_analyze _ _ _ _).bind (fun _ => does_pure _)

theorem length_failureReports_reportFailure (path language : String) (e : Failure) :
    (reportFailure path language e).failureReports.length = 1 := by
  unfold reportFailure failureReports messages
  cases e.isExpected with
  | true => simp [Event.message?, Message.tellsFailure]
  | false => simp [Event.message?, Message.tellsFailure]

/-- **Attempting a file gives one report if it fails, and none if it does not.** -/
theorem length_failureReports_attempt (path language : String) :
    (w.attempt pack fs path language).failureReports.length
      = if (w.attempt pack fs path language).value.isSome then 0 else 1 := by
  have hanalyze (source : Source) :
      (w.analyzeSource pack path language source).failureReports = [] :=
    (reportsFrom_analyzeSource w pack path language source).failureReports (by decide)
  unfold attempt
  cases fs.readSource path with
  | error e =>
    simp only [failureReports_bind, failureReports_pure, value_bind, value_pure, List.nil_append,
      List.append_nil, length_failureReports_reportFailure]
    rfl
  | ok source =>
    cases hv : (w.analyzeSource pack path language source).value with
    | error e =>
      simp only [failureReports_bind, failureReports_pure, value_bind, value_pure, hv, hanalyze,
        List.nil_append, List.append_nil, length_failureReports_reportFailure]
      rfl
    | ok analysed => simp [hv, hanalyze]

/-- The report of a scan tells of no single file. -/
theorem failureReports_reportScan (w : Workspace) : w.reportScan.failureReports = [] := by
  have hinfo (text : String) : (report .info .workspace text).failureReports = [] := rfl
  have hnone (root : String) :
      (report .warning .workspace ("No files indexed under " ++ root)).failureReports = [] := by
    simp [failureReports, messages, Event.message?, Message.tellsFailure]
  have hend : (if w.stats.seen ≠ 0 ∧ w.stats.indexed = 0 ∧ (!w.stats.cancelled) = true then
      report .warning .workspace ("No files indexed under " ++ w.config.projectRoot)
      else pure ()).failureReports = [] := by
    split
    · exact hnone _
    · rfl
  unfold reportScan
  dsimp only
  split
  · simp only [failureReports_bind, hinfo, hend, List.append_nil]
  · simp only [failureReports_bind, hinfo, hend, List.append_nil]

end Workspace

end SourceIndex
