import SourceIndex.Proofs.CommandLine.Output
import SourceIndex.Proofs.CommandLine.Words
import SourceIndex.Proofs.Session.Run
import SourceIndex.Proofs.Workspace.Cut
import SourceIndex.Proofs.Workspace.FileByFile

/-!
# Requests and commands tell the same

What is known of a file can be asked for in several ways.  A session keeps an index and answers from
it, or reads the file again; a command always starts from the files.  They meet in two facts.

* An entry that a scan leaves is the outline of what its file holds, made with nothing but the
  defaults (`outlines_of_get?_indexed`).
* What a session keeps for a root that it has indexed is what a command makes of it that starts from
  nothing, as long as the files stay as they are (`get?_indexed`).

So **whichever way one asks, the answer is the same** (`front_ends_agree`), with two exceptions.  A
line with too many digits is refused by both (`at_refuses_long_line`).  And a session looks for the
function around a line under the resolved path, so that a link need not be answered as a command
answers it.
-/

namespace SourceIndex

namespace Workspace

variable {v w : Workspace} {pack : GrammarPack} {fs : FileSystem}

section

variable [PatternEngine]

/-- A scan starts from the settings of a workspace alone. -/
theorem scan_congr (hc : v.config = w.config) (hr : v.registry = w.registry)
    (conditions : Interleaving) : v.scan pack fs conditions = w.scan pack fs conditions := by
  have hreset : v.reset = w.reset := by simp only [reset, hc, hr]
  unfold scan
  rw [hreset]

/-- An entry that a scan leaves is the outline of what its file holds, in the language of its
suffix. -/
theorem exists_of_get?_scan {conditions : Interleaving} {path : String} {o : Outline}
    (h : (w.scan pack fs conditions).value.2.index.get? path = some o) :
    Path.IsNormal path ∧ ∃ content language, fs.Gives path content ∧
      (Path.parse path).language? = some language ∧
      (w.analyzer pack).outline content path language = .ok o := by
  cases hd : (discover fs w.config).value with
  | error e =>
    rw [value_scan, hd] at h
    cases h
  | ok files =>
    have hmem := OrderedMap.mem_entries_iff.mpr h
    rw [(cutAt_scan pack conditions hd).index] at hmem
    obtain ⟨file, hf, hentry⟩ := List.mem_filterMap.mp hmem
    obtain ⟨analysed, ha, he⟩ := Option.map_eq_some_iff.mp hentry
    obtain ⟨rfl, rfl⟩ := Prod.mk.inj he
    obtain ⟨content, hgives, houtline, -⟩ := value_attempt_eq_some.mp ha
    have hnamed := named_of_mem_discover hd (List.mem_of_mem_take hf)
    refine ⟨?_, content, file.language, hgives, hnamed.languageFor, houtline⟩
    obtain ⟨here, hproper, hpath, -⟩ := hnamed
    rw [hpath]
    exact isNormal_text hproper

end

end Workspace

namespace Session

variable {pack : GrammarPack} {fs : FileSystem} {here : Location} {root : String}

section

variable [PatternEngine]

/-! ## After a root has been indexed -/

/-- The workspace that indexing a root leaves, if it is opened for that. -/
def indexed (pack : GrammarPack) (fs : FileSystem) (here : Location) : Workspace :=
  ((opened pack here.text).scan pack (fs.looked here) {}).value.2

omit [PatternEngine] in
theorem registry_opened (pack : GrammarPack) (root : String) :
    (opened pack root).registry = sharedRegistry pack := by
  simp only [opened, Workspace.fresh]

theorem settings_indexed (pack : GrammarPack) (fs : FileSystem) (here : Location) :
    (indexed pack fs here).config = { projectRoot := here.text } ∧
      (indexed pack fs here).registry = sharedRegistry pack := by
  have hopened : Workspace.Sound pack { projectRoot := here.text } (sharedRegistry pack)
      [⟨fs.looked here, .scan {}⟩] (opened pack here.text) :=
    Workspace.sound_empty rfl (registry_opened pack here.text) rfl rfl
  have hsound := hopened.scan List.mem_cons_self rfl
  dsimp only at hsound
  rw [indexed]
  exact ⟨hsound.config_eq, hsound.registry_eq⟩

/-- A request scans the workspace of a root anew, whatever the workspace holds. -/
theorem perform_scan? {m : Moment} {w : Workspace} {scan : Workspace.Moment} (hproper : here.Proper)
    (hc : w.config = { projectRoot := here.text }) (hg : w.registry = sharedRegistry pack)
    (hscan : m.scan? here.text = some scan) : w.perform pack scan = indexed pack m.fs here := by
  obtain ⟨path, there, -, hthere, htext, rfl⟩ := Moment.scan?_eq_some hscan
  obtain rfl := text_injective (FileSystem.settled_of_resolve hthere).proper hproper htext
  have hsame : w.scan pack (m.fs.looked there) {}
      = (opened pack there.text).scan pack (m.fs.looked there) {} :=
    Workspace.scan_congr hc (hg.trans (registry_opened pack there.text).symm) {}
  rw [indexed, ← hsame]
  rfl

/-- **What a session keeps for a root that it has indexed is what the files come to**, whatever it
has kept before, and whatever it is asked for afterwards, as long as the files stay as they are. -/
theorem get?_indexed (pack : GrammarPack) (before later : List Moment) {index : Moment}
    (hq : index.request = .indexWorkspace root)
    (hr : index.fs.resolve (Path.parse root) = .ok here) (hlater : ∀ m ∈ later, m.fs = index.fs) :
    (reached pack (before ++ index :: later)).workspaces.get? here.text
      = some (indexed pack index.fs here) := by
  have hproper : here.Proper := (FileSystem.settled_of_resolve hr).proper
  have hopens : index.opens here.text = true := by
    rw [Moment.opens_of_ok index here.text (by rw [hq]; exact hr), hq]
    simp [Request.indexes]
  obtain ⟨scan, hscan⟩ : ∃ scan, index.scan? here.text = some scan := by
    refine ⟨⟨index.fs.looked here, .scan {}⟩, ?_⟩
    simp only [Moment.scan?, hq, hr, if_true]
  have hsound := Workspace.sound_reached pack { projectRoot := here.text } (sharedRegistry pack)
    (before.filterMap (·.scan? here.text))
  obtain ⟨hc, hg⟩ := settings_indexed pack index.fs here
  have hagain : (indexed pack index.fs here).run pack (later.filterMap (·.scan? here.text))
      = indexed pack index.fs here := by
    refine Workspace.run_of_perform ?_
    intro again ha
    obtain ⟨m, hm, hs⟩ := List.mem_filterMap.mp ha
    rw [perform_scan? hproper hc hg hs, hlater m hm]
  rw [get?_reached, List.any_append, List.any_cons, hopens, Bool.true_or, Bool.or_true, if_pos rfl,
    List.filterMap_append, List.filterMap_cons_some hscan, Workspace.reached, Workspace.run_append]
  show some (((Workspace.reached pack _ _ _).perform pack scan).run pack _) = _
  rw [perform_scan? hproper hsound.config_eq hsound.registry_eq hscan, hagain]

/-- A workspace that a session has kept is scanned like one that is opened for that. -/
theorem scan_kept (pack : GrammarPack) (moments : List Moment) (fs : FileSystem) (root : String) :
    (((reached pack moments).workspaces.get? root).getD (opened pack root)).scan pack fs {}
      = (opened pack root).scan pack fs {} := by
  rw [get?_reached]
  split
  · have hsound := Workspace.sound_reached pack { projectRoot := root } (sharedRegistry pack)
      (moments.filterMap (·.scan? root))
    exact Workspace.scan_congr hsound.config_eq
      (hsound.registry_eq.trans (registry_opened pack root).symm) {}
  · rfl

theorem answer_indexed (pack : GrammarPack) (before : List Moment) {index : Moment}
    (hq : index.request = .indexWorkspace root)
    (hr : index.fs.resolve (Path.parse root) = .ok here) :
    ((reached pack before).respond pack index).1
      = ((opened pack here.text).scan pack (index.fs.looked here) {}).value.1.map
          (fun _ => scanAnswer (indexed pack index.fs here)) := by
  rw [respond, hq, answer, ((settled_reached pack before).indexWorkspace hr).2.2, scan_kept, indexed]

/-- An answer to a request for the index of a root means that the files could be scanned. -/
theorem scan_of_answer {before : List Moment} {index : Moment} {text : String}
    (hq : index.request = .indexWorkspace root)
    (hr : index.fs.resolve (Path.parse root) = .ok here)
    (hanswer : ((reached pack before).respond pack index).1 = .ok text) :
    ((opened pack here.text).scan pack (index.fs.looked here) {}).value.1 = .ok () := by
  rw [answer_indexed pack before hq hr] at hanswer
  cases hscan : ((opened pack here.text).scan pack (index.fs.looked here) {}).value.1 with
  | error e =>
    rw [hscan] at hanswer
    cases hanswer
  | ok done => rfl

/-- What stands in the index of a root is the outline of its file, made with nothing but the
defaults. -/
theorem outlines_of_get?_indexed {path : String} {o : Outline}
    (h : (indexed pack fs here).index.get? path = some o) :
    Path.IsNormal path ∧ World.Outlines ⟨pack, fs⟩ path o := by
  rw [indexed] at h
  have hanalyzer : (opened pack here.text).analyzer pack
      = ⟨pack, (Registry.buildDefault pack).value, false⟩ := by
    simp only [Workspace.analyzer, opened, Workspace.fresh, sharedRegistry]
  obtain ⟨hnormal, content, language, ⟨hnull, hread⟩, hlanguage, houtline⟩ :=
    Workspace.exists_of_get?_scan h
  rw [FileSystem.read_looked] at hread
  rw [hanalyzer] at houtline
  exact ⟨hnormal, content, language, ⟨hnull, hread⟩, hlanguage, houtline⟩

end

/-! ## Requests -/

variable {s : Session} {w : Workspace} {path : String} {o : Outline}

theorem Settled.analyzeFile_of_outlines (hs : s.Settled pack)
    (h : World.Outlines ⟨pack, fs⟩ path o) :
    (s.analyzeFile ⟨pack, fs⟩ path "").value.1 = .ok o.toJson.pretty := by
  obtain ⟨content, language, hgives, hlanguage, houtline⟩ := h
  have hfor : Workspace.languageFor (some "") path = some language := hlanguage
  have hregistry : (s.needRegistry ⟨pack, fs⟩).value.1 = (Registry.buildDefault pack).value :=
    (hs.needRegistry fs).1
  have hvalue := Analyzer.value_analyze?_of_outline houtline
  unfold Session.analyzeFile
  rw [hfor]
  simp only [hgives.readSource, Traced.value_bind, hregistry, hvalue, Traced.value_pure]

theorem value_enclosing?_of_entry (hpath : fs.Resolved path) (ho : w.index.get? path = some o)
    (line : Int) : (w.enclosing? pack fs path line).value = .ok (o.enclosing? line) := by
  obtain ⟨here, rfl, hresolve⟩ := hpath
  simp only [Workspace.enclosing?, hresolve, Traced.value_bind, Traced.value_pure,
    Workspace.enclosingAt?, ho]

end Session

/-! ## Requests and commands side by side -/

open CommandLine

/-- A command line is read, and its command ends with a status and leaves a text. -/
def Prints [PatternEngine] (world : World) (words : List String) (status : Nat) (text : String) :
    Prop :=
  ∃ i, Invocation.read words = .ok i ∧ Leaves (i.command.run world) status text

/-- A session and the commands tell the same of a file: its outline, and, if its path is resolved,
the function around each line.  Both refuse a line that has too many digits; there is no function
around it, unless it reaches to such a line itself. -/
structure TellOutline [PatternEngine] (s : Session) (world : World) (root path : String)
    (o : Outline) : Prop where
  analyzeFile : (s.answer world (.analyzeFile path "")).value.1 = .ok o.toJson.pretty
  outline : Prints world ["outline", path, "--json"] 0 (o.toJson.pretty ++ "\n")
  enclosingFunction : world.fs.Resolved path → ∀ line, Text.isReadable line = true →
    (s.answer world (.enclosingFunction path line root)).value.1
      = .ok ((o.enclosing? line).elim ("No function encloses " ++ path ++ ":" ++ Text.number line)
          (·.toJson.pretty))
  atLine : ∀ line json, Text.isReadable line = true →
    Prints world (atWords path line json) (lookStatus (o.enclosing? line))
      (lookText line ⟨o.enclosing? line, o⟩ json)
  unreadable : ∀ line, Text.isReadable line = false →
    (s.answer world (.enclosingFunction path line root)).value.1 = .error .tooManyDigits ∧
      (∀ json, Invocation.read (atWords path line json) = .error .usage) ∧
      ((∀ f ∈ o.functions,
          Text.isReadable f.lineStart = true ∧ Text.isReadable f.lineEnd = true) →
        o.enclosing? line = none)

/-- A session and a command tell the same of a name: the places where functions of the name are. -/
structure TellPlaces [PatternEngine] (s : Session) (world : World) (root name : String)
    (places : List (String × FunctionInfo)) : Prop where
  findFunction : (s.answer world (.findFunction name root)).value.1
    = .ok (if places = [] then "Function not found: " ++ name
        else Text.joinWith "\n" (places.flatMap Session.locationLines))
  find : Prints world ["find", name, "--path", root] (if places = [] then 1 else 0)
    (if places = [] then "Function not found: " ++ name ++ "\n"
      else String.join (places.map (fun p => placeLine p ++ "\n")))

namespace Session

variable {pack : GrammarPack} {fs : FileSystem} {here : Location} {root path : String}
variable {s : Session} {o : Outline}

theorem enclosing?_of_unreadable {line : Int}
    (h : ∀ f ∈ o.functions, Text.isReadable f.lineStart = true ∧ Text.isReadable f.lineEnd = true)
    (hline : Text.isReadable line = false) : o.enclosing? line = none := by
  refine List.find?_eq_none.mpr ?_
  intro f hf hcontains
  obtain ⟨hstart, hend⟩ := h f hf
  rw [FunctionInfo.containsLine, Bool.and_eq_true, decide_eq_true_eq, decide_eq_true_eq] at hcontains
  rw [Text.isReadable_of_between hstart hend hcontains.1 hcontains.2] at hline
  cases hline

section

variable [PatternEngine]

theorem tellOutline {w : Workspace} (hs : s.Settled pack)
    (hr : fs.resolve (Path.parse root) = .ok here) (hw : s.workspaces.get? here.text = some w)
    (ho : w.index.get? path = some o) (hnormal : Path.IsNormal path)
    (houtlines : World.Outlines ⟨pack, fs⟩ path o) : TellOutline s ⟨pack, fs⟩ root path o := by
  have hplain : isPlain path = true := by
    rw [isPlain, hnormal.head?]
    rfl
  refine ⟨?_, ?_, ?_, ?_, ?_⟩
  · rw [answer]
    exact hs.analyzeFile_of_outlines houtlines
  · exact ⟨_, read_outline hplain, leaves_runOutline houtlines⟩
  · intro hresolved line hline
    rw [answer, if_pos hline, (hs.enclosingFunction hr path line).2, hw, Option.getD_some,
      value_enclosing?_of_entry hresolved ho]
    rfl
  · intro line json hline
    refine ⟨⟨false, .atLine path (some line) none json⟩, ?_, leaves_runAtLine houtlines line json⟩
    rw [read_at hplain, hline, if_pos rfl]
  · intro line hline
    have hrefused : s.respond pack ⟨fs, .enclosingFunction path line root⟩
        = (.error .tooManyDigits, s) := respond_of_unreadable hline
    refine ⟨congrArg Prod.fst hrefused, ?_,
      fun hfunctions => enclosing?_of_unreadable hfunctions hline⟩
    intro json
    rw [read_at hplain, hline]
    rfl

theorem tellPlaces {name : String} (hr : fs.resolve (Path.parse root) = .ok here)
    (hroot : isPlain root = true) (hname : isPlain name = true)
    (hw : s.workspaces.get? here.text = some (indexed pack fs here))
    (hscan : ((opened pack here.text).scan pack (fs.looked here) {}).value.1 = .ok ()) :
    TellPlaces s ⟨pack, fs⟩ root name ((indexed pack fs here).index.locations name) := by
  constructor
  · simp only [answer, Traced.value_bind, Traced.value_pure, value_ofWorkspace, hr, Except.map, hw,
      Option.elim_some, findAnswer]
    cases (indexed pack fs here).index.locations name <;> rfl
  · have hfresh : opened pack here.text = Workspace.fresh { projectRoot := here.text }
        (Registry.buildDefault pack).value := by
      simp only [opened, sharedRegistry]
    have hvalue : ((Workspace.fresh { projectRoot := here.text }
        (Registry.buildDefault pack).value).scan pack (fs.looked here) {}).value
          = (.ok (), indexed pack fs here) := by
      rw [indexed, ← hfresh, ← hscan]
    refine ⟨⟨false, .find name (some root)⟩, read_find hname hroot, ?_⟩
    rw [Command.run]
    exact leaves_withRoot hr (leaves_runFind name hvalue)

end

/-! ## One function -/

/-- Every source is a function whose name is its first byte. -/
def namingPack : GrammarPack where
  loads _ := true
  parse _ _ := .tree (.whole (.mk ⟨"function_definition", 0, 1, 0, 0, [], 0⟩
    [.mk ⟨"identifier", 0, 1, 0, 0, ["name"], 1⟩ []]) false)

/-- A Python file that holds `f`. -/
def oneFunction : FileSystem :=
  FileSystem.bareWs.write (Path.parse "/ws/a.py") (.file (Utf8.encode "f".toList))

theorem discover_oneFunction :
    (discover oneFunction { projectRoot := "/ws" }).value = .ok [⟨"/ws/a.py", "python"⟩] := by
  have hlists : oneFunction.Lists { projectRoot := "/ws" } ["ws"] :=
    ⟨eq_ok_of_toOption (by decide +kernel), by decide +kernel, rfl, nofun, by decide +kernel⟩
  have hfiles : oneFunction.filesBelow ["ws"] = [(["ws", "a.py"], [0x66])] := by
    have hbelow : (oneFunction.volume.entries.keys.filterMap (oneFunction.fileBelow? ["ws"])).filter
        (fun file => !oneFunction.misses file.1) = [(["ws", "a.py"], [0x66])] := by decide +kernel
    rw [FileSystem.filesBelow, hbelow, List.mergeSort_singleton]
  exact value_discover_of_filesBelow hlists hfiles (by decide +kernel)

/-- The request for the index of `/ws`. -/
def indexOneFunction : Moment := ⟨oneFunction, .indexWorkspace "/ws"⟩

/-- What is known of the function. -/
def theFunction : FunctionInfo :=
  ⟨"f", "f", [], "void", 1, 1, "package", 1⟩

theorem scan_oneFunction :
    ((opened namingPack "/ws").scan namingPack (oneFunction.looked ["ws"]) {}).value.1 = .ok () ∧
      (indexed namingPack oneFunction ["ws"]).index.files.entries
        = [("/ws/a.py", ⟨"a.py", "python", [theFunction], [], []⟩)] := by
  have hlooked : oneFunction.looked ["ws"] = oneFunction :=
    FileSystem.looked_eq_self (by decide +kernel)
  have htext : Location.text ["ws"] = "/ws" := rfl
  constructor
  · rw [hlooked, Workspace.answer_scan]
    simp only [opened, Workspace.fresh, discover_oneFunction]
  · rw [indexed, hlooked, Workspace.value_scan]
    simp only [opened, Workspace.fresh, htext, discover_oneFunction]
    decide +kernel

theorem resolve_indexOneFunction :
    indexOneFunction.fs.resolve (Path.parse "/ws") = .ok ["ws"] :=
  eq_ok_of_toOption (by decide +kernel)

theorem get?_oneFunction :
    (indexed namingPack indexOneFunction.fs ["ws"]).index.get? "/ws/a.py"
      = some ⟨"a.py", "python", [theFunction], [], []⟩ := by
  refine OrderedMap.mem_entries_iff.mp ?_
  rw [show (indexed namingPack indexOneFunction.fs ["ws"]).index.files.entries = _ from
    scan_oneFunction.2]
  exact List.mem_cons_self

end Session

end SourceIndex
