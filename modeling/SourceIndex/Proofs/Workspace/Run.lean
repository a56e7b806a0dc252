import SourceIndex.Ignore.Rules
import SourceIndex.Proofs.Discovery
import SourceIndex.Proofs.Workspace.Scan

/-!
# Runs of a workspace

A run asks a workspace for one thing after another.  Between two requests anything may happen to the
files: every moment of a run brings the file system of its own, so that all that is written, deleted,
made unreadable or left to come and go in between is covered.

Four things are kept side by side in a workspace: outlines, digests and two totals.  The invariant of
all runs (`Sound`) says that they fit together, and that every entry is *accounted for*: it is what
the analysis makes of bytes that were read from its path at some moment of the run.  A request keeps
the invariant (`Sound.perform`), and so does a run (`Sound.run`).

The path of an entry is absolute and in normal form.  A request for one file enters it under its
resolved path, but a scan enters it under the path that discovery names: **the path of an entry is
resolved unless a scan came upon a link there** (`run_consistent`, `linked_key_after_scan`).
-/

namespace SourceIndex.Workspace

/-! ## Requests and moments -/

/-- What a workspace can be asked for. -/
inductive Request where
  /-- To make its index anew, under conditions that may cancel the scan anywhere. -/
  | scan (conditions : Interleaving)
  /-- To index a file, in the given language or in that of its suffix. -/
  | indexFile (path : String) (language : Option String)
  | removeFile (path : String)
  /-- For the first file with a function of the name. -/
  | findFunction (name : String)
  /-- For the function around a line. -/
  | enclosing (path : String) (line : Int)

/-- A request, and the file system that it meets. -/
structure Moment where
  fs : FileSystem
  request : Request

section

variable [PatternEngine]

/-- The workspace that a request leaves.  Looking functions up leaves it as it is. -/
def perform (w : Workspace) (pack : GrammarPack) (m : Moment) : Workspace :=
  match m.request with
  | .scan conditions => (w.scan pack m.fs conditions).value.2
  | .indexFile path language => (w.indexFile pack m.fs path language).value.2
  | .removeFile path => (w.removeFile m.fs path).value.2
  | .findFunction _ => w
  | .enclosing _ _ => w

/-- The workspace that a run leaves. -/
def run (w : Workspace) (pack : GrammarPack) (moments : List Moment) : Workspace :=
  moments.foldl (fun w m => w.perform pack m) w

theorem run_append (w : Workspace) (pack : GrammarPack) (first second : List Moment) :
    w.run pack (first ++ second) = (w.run pack first).run pack second :=
  List.foldl_append

/-- The workspace that is reached by a run from the beginning. -/
def reached (pack : GrammarPack) (config : Config) (registry : Registry) (moments : List Moment) :
    Workspace :=
  (fresh config registry).run pack moments

theorem reached_scan (pack : GrammarPack) (config : Config) (registry : Registry) (fs : FileSystem)
    (conditions : Interleaving) (later : List Moment) :
    reached pack config registry (⟨fs, .scan conditions⟩ :: later)
      = ((fresh config registry).scan pack fs conditions).value.2.run pack later :=
  rfl

/-- The paths of the files that a request reads for the index: those that a scan comes to before it
is cancelled, or the one that is to be indexed. -/
def Moment.opened (config : Config) (m : Moment) : List String :=
  match m.request with
  | .scan conditions =>
    match (discover m.fs config).value with
    | .ok files => (files.take (Scan.taken conditions.cancelled 0 files.length)).map (·.path)
    | .error _ => []
  | .indexFile path _ =>
    match m.fs.resolve (Path.parse path) with
    | .ok here => [here.text]
    | .error _ => []
  | _ => []

/-- The path under which a request enters a file is resolved, unless a scan comes upon a link
there. -/
structure Moment.Names (m : Moment) (path : String) : Prop where
  resolved_iff : m.fs.Resolved path ↔ ¬m.fs.Linked path
  scan_of_linked : m.fs.Linked path → ∃ conditions, m.request = .scan conditions

/-- At a moment a content is read from a path for the index. -/
def Moment.Reads (config : Config) (m : Moment) (path : String) (content : Bytes) : Prop :=
  path ∈ m.opened config ∧ m.fs.Gives path content

variable {pack : GrammarPack} {config : Config} {registry : Registry}
variable {history : List Moment} {w : Workspace}

theorem Moment.names_of_opened {m : Moment} {path : String} (h : path ∈ m.opened config) :
    m.Names path := by
  unfold Moment.opened at h
  split at h
  · next conditions hr =>
    split at h
    · next files hd =>
      obtain ⟨file, hf, rfl⟩ := List.mem_map.mp h
      obtain ⟨here, content, hshows, hpath, -⟩ :=
        exists_of_mem_discover hd (List.mem_of_mem_take hf)
      rw [hpath]
      exact ⟨hshows.resolved_iff, fun _ => ⟨conditions, hr⟩⟩
    · cases h
  · split at h
    · next here hres =>
      rw [List.mem_singleton.mp h]
      have hresolved := FileSystem.resolved_of_resolve hres
      exact ⟨iff_of_true hresolved hresolved.not_linked,
        fun hl => absurd hl hresolved.not_linked⟩
    · cases h
  · cases h

/-- What every request of a run leaves as it is, the run leaves as it is. -/
theorem run_of_perform {moments : List Moment} (h : ∀ m ∈ moments, w.perform pack m = w) :
    w.run pack moments = w := by
  induction moments with
  | nil => rfl
  | cons m rest ih =>
    rw [run, List.foldl_cons, h m List.mem_cons_self]
    exact ih (fun later hl => h later (List.mem_cons_of_mem m hl))

/-! ## The invariant -/

/-- An entry is accounted for: its path is in normal form, and it is what the analysis makes of bytes
that were read from there. -/
structure Accounted (pack : GrammarPack) (config : Config) (registry : Registry)
    (history : List Moment) (path : String) (analysed : Analysed) : Prop where
  normal : Path.IsNormal path
  source : ∃ content, (∃ m ∈ history, m.Reads config path content) ∧
    analysed.digest = Sha256.hexDigest content ∧
    (Analyzer.mk pack registry config.strict).outline content path analysed.outline.language
      = .ok analysed.outline

/-- Outlines, digests and totals fit together, and every entry is accounted for. -/
structure Sound (pack : GrammarPack) (config : Config) (registry : Registry)
    (history : List Moment) (w : Workspace) : Prop where
  config_eq : w.config = config
  registry_eq : w.registry = registry
  held : ∀ path, ∃ kept, w.Holds path kept ∧
    ∀ analysed, kept = some analysed → Accounted pack config registry history path analysed
  balanced : w.index.Balanced

theorem Accounted.mono {later : List Moment} {path : String} {analysed : Analysed}
    (h : Accounted pack config registry history path analysed) :
    Accounted pack config registry (history ++ later) path analysed := by
  obtain ⟨hres, content, ⟨m, hm, hread⟩, hrest⟩ := h
  exact ⟨hres, content, ⟨m, List.mem_append_left _ hm, hread⟩, hrest⟩

theorem Sound.mono {later : List Moment} (h : Sound pack config registry history w) :
    Sound pack config registry (history ++ later) w := by
  refine ⟨h.config_eq, h.registry_eq, ?_, h.balanced⟩
  intro path
  obtain ⟨kept, hk, ha⟩ := h.held path
  exact ⟨kept, hk, fun analysed he => (ha analysed he).mono⟩

/-- Without entries there is nothing to account for. -/
theorem sound_empty (hc : w.config = config) (hr : w.registry = registry)
    (hi : w.index = CodeIndex.empty) (hd : w.digests = OrderedMap.empty) :
    Sound pack config registry history w := by
  refine ⟨hc, hr, ?_, by rw [hi]; exact CodeIndex.balanced_empty⟩
  intro path
  refine ⟨none, ⟨by rw [hi]; rfl, by rw [hd]; rfl⟩, ?_⟩
  intro analysed he
  cases he

theorem Sound.store {path : String} {analysed : Analysed}
    (h : Sound pack config registry history w)
    (ha : Accounted pack config registry history path analysed) :
    Sound pack config registry history (w.store path analysed) := by
  refine ⟨h.config_eq, h.registry_eq, ?_, h.balanced.add path analysed.outline⟩
  intro there
  obtain ⟨kept, hk, hall⟩ := h.held there
  refine ⟨_, hk.store path analysed, ?_⟩
  intro found hf
  split at hf
  · next he =>
    obtain rfl := Option.some.inj hf
    rw [he]
    exact ha
  · exact hall found hf

theorem Sound.drop (h : Sound pack config registry history w) (path : String) :
    Sound pack config registry history (w.drop path) := by
  refine ⟨h.config_eq, h.registry_eq, ?_, h.balanced.remove path⟩
  intro there
  obtain ⟨kept, hk, hall⟩ := h.held there
  refine ⟨_, hk.drop path, ?_⟩
  intro found hf
  split at hf
  · cases hf
  · exact hall found hf

theorem Sound.record {file : SourceFile} {result : Option Analysed}
    (h : Sound pack config registry history w)
    (ha : ∀ analysed, result = some analysed →
      Accounted pack config registry history file.path analysed) :
    Sound pack config registry history (w.record file result) := by
  cases result with
  | none => exact ⟨h.config_eq, h.registry_eq, h.held, h.balanced⟩
  | some analysed =>
    have hs := h.store (ha analysed rfl)
    exact ⟨hs.config_eq, hs.registry_eq, hs.held, hs.balanced⟩

/-! ## What one request keeps -/

/-- An entry made from a content that was read is accounted for. -/
theorem Sound.accounted {m : Moment} {here : Location} {content : Bytes} {language : String}
    {o : Outline} (h : Sound pack config registry history w) (hm : m ∈ history)
    (hp : here.Proper) (hread : m.Reads config here.text content)
    (ho : (w.analyzer pack).outline content here.text language = .ok o) :
    Accounted pack config registry history here.text ⟨o, Sha256.hexDigest content⟩ := by
  refine ⟨isNormal_text hp, content, ⟨m, hm, hread⟩, rfl, ?_⟩
  rw [analyzer, h.registry_eq, h.config_eq] at ho
  rw [Analyzer.language_of_outline ho]
  exact ho

/-- The loop of a scan keeps the invariant, if what it makes of each file is accounted for. -/
theorem Sound.takeIn {v : Workspace} {fs : FileSystem} {files : List SourceFile}
    (h : Sound pack config registry history v)
    (ha : ∀ file ∈ files, ∀ analysed,
      (w.attempt pack fs file.path file.language).value = some analysed →
        Accounted pack config registry history file.path analysed) :
    Sound pack config registry history (w.takeIn pack fs v files) := by
  induction files generalizing v with
  | nil => exact h
  | cons file rest ih =>
    exact ih (h.record (ha file (by simp))) (fun f hf => ha f (by simp [hf]))

theorem Sound.scan {m : Moment} {conditions : Interleaving}
    (h : Sound pack config registry history w) (hm : m ∈ history)
    (hr : m.request = .scan conditions) :
    Sound pack config registry history (w.scan pack m.fs conditions).value.2 := by
  rw [value_scan, h.config_eq]
  split
  · exact sound_empty h.config_eq h.registry_eq rfl rfl
  · next files hd =>
    -- Each file that the loop comes to was found at a proper location.
    have hmade : ∀ file ∈ files.take (Scan.taken conditions.cancelled 0 files.length),
        ∀ analysed, (w.attempt pack m.fs file.path file.language).value = some analysed →
          Accounted pack config registry history file.path analysed := by
      intro file hf analysed hv
      obtain ⟨here, shown, hshows, hpath, -⟩ :=
        exists_of_mem_discover hd (List.mem_of_mem_take hf)
      obtain ⟨content, hgives, ho, hdigest⟩ := value_attempt_eq_some.mp hv
      have hopened : file.path ∈ m.opened config := by
        rw [Moment.opened, hr]
        simp only [hd]
        exact List.mem_map.mpr ⟨file, hf, rfl⟩
      obtain ⟨outline, digest⟩ := analysed
      obtain rfl := hdigest
      rw [hpath] at hgives ho hopened ⊢
      exact h.accounted hm hshows.proper ⟨hopened, hgives⟩ ho
    have hstart : Sound pack config registry history
        { w.reset with stats := { seen := files.length } } :=
      sound_empty h.config_eq h.registry_eq rfl rfl
    have hloop := hstart.takeIn hmade
    exact ⟨hloop.config_eq, hloop.registry_eq, hloop.held, hloop.balanced⟩

theorem Sound.indexFile {m : Moment} {path : String} {language : Option String}
    (h : Sound pack config registry history w) (hm : m ∈ history)
    (hr : m.request = .indexFile path language) :
    Sound pack config registry history (w.indexFile pack m.fs path language).value.2 := by
  rcases indexFile_exit w pack m.fs path language with ⟨e, -, hv⟩ | ⟨here, o, after, hres, hv, hx⟩
  · rw [hv]
    exact h
  · rw [hv]
    have hopened : here.text ∈ m.opened config := by
      rw [Moment.opened, hr]
      simp [hres]
    cases hx with
    | noLanguage => exact h
    | unreadable => exact h.drop here.text
    | unchanged => exact h
    | failed => exact h.drop here.text
    | analysed _ hgives _ ho =>
      exact h.store (h.accounted hm (FileSystem.settled_of_resolve hres).proper ⟨hopened, hgives⟩ ho)

/-- **A request keeps the invariant**, whatever it is and whatever way it ends. -/
theorem Sound.perform (h : Sound pack config registry history w) (m : Moment) :
    Sound pack config registry (history ++ [m]) (w.perform pack m) := by
  have hlater : Sound pack config registry (history ++ [m]) w := h.mono
  have hm : m ∈ history ++ [m] := List.mem_append_right _ (List.mem_singleton.mpr rfl)
  unfold Workspace.perform
  split
  · next conditions hr => exact hlater.scan hm hr
  · next path language hr => exact hlater.indexFile hm hr
  · next path _ =>
    rcases removeFile_exit w m.fs path with hv | ⟨here, -, hv⟩
    · rw [hv]
      exact hlater
    · rw [hv]
      exact hlater.drop here.text
  · exact hlater
  · exact hlater

/-! ## What a run keeps -/

/-- **A run keeps the invariant**, however long it is. -/
theorem Sound.run (h : Sound pack config registry history w) (moments : List Moment) :
    Sound pack config registry (history ++ moments) (w.run pack moments) := by
  induction moments generalizing w history with
  | nil => rw [List.append_nil]; exact h
  | cons m rest ih =>
    rw [← List.singleton_append, ← List.append_assoc]
    exact ih (h.perform m)

theorem sound_reached (pack : GrammarPack) (config : Config) (registry : Registry)
    (moments : List Moment) :
    Sound pack config registry moments (reached pack config registry moments) := by
  have h : Sound pack config registry [] (fresh config registry) := sound_empty rfl rfl rfl rfl
  exact h.run moments

/-- What has an entry is held with a digest, and accounted for. -/
theorem Sound.exists_of_get? {path : String} {o : Outline}
    (h : Sound pack config registry history w) (ho : w.index.get? path = some o) :
    ∃ analysed, w.Holds path (some analysed) ∧ analysed.outline = o ∧
      Accounted pack config registry history path analysed := by
  obtain ⟨kept, hk, ha⟩ := h.held path
  cases kept with
  | none => exact absurd (ho.symm.trans hk.1) (by simp)
  | some analysed => exact ⟨analysed, hk, Option.some.inj (hk.1.symm.trans ho), ha analysed rfl⟩

/-- What has no entry is not held. -/
theorem Sound.holds_none {path : String} (h : Sound pack config registry history w)
    (hn : w.index.get? path = none) : w.Holds path none := by
  obtain ⟨kept, hk, -⟩ := h.held path
  cases kept with
  | none => exact hk
  | some analysed => exact absurd (hn.symm.trans hk.1) (by simp)

/-- What every run leaves behind. -/
structure Consistent (pack : GrammarPack) (config : Config) (registry : Registry)
    (history : List Moment) (w : Workspace) : Prop where
  distinct : w.index.files.keys.Nodup
  /-- Keys are absolute paths in normal form. -/
  normal : ∀ path ∈ w.index.files.keys, Path.IsNormal path
  digested : ∀ path, path ∈ w.digests.keys ↔ path ∈ w.index.files.keys
  /-- Each outline is that of bytes that were read from its path, and whose digest is kept.  When they
  were read, the path was resolved unless a scan came upon a link there. -/
  accounted : ∀ path outline, (path, outline) ∈ w.index.files.entries →
    ∃ content, (∃ m ∈ history, m.Reads config path content ∧ m.Names path) ∧
      w.digests.get? path = some (Sha256.hexDigest content) ∧
      (Analyzer.mk pack registry config.strict).outline content path outline.language
        = .ok outline
  functions : w.index.totalFunctions = w.index.files.total (·.functions.length)
  classes : w.index.totalClasses = w.index.files.total (·.classes.length)
  nonneg : 0 ≤ w.index.totalFunctions ∧ 0 ≤ w.index.totalClasses

/-- **Every run leaves a consistent workspace**, whatever is asked for, whatever way each request
ends, and whatever happens to the files in between.  Its keys are resolved paths but for the links
that scans came upon. -/
theorem run_consistent (pack : GrammarPack) (config : Config) (registry : Registry)
    (moments : List Moment) :
    Consistent pack config registry moments (reached pack config registry moments) := by
  have h := sound_reached pack config registry moments
  generalize reached pack config registry moments = w at h
  -- Whatever has an outline is held, and what is held is accounted for.
  have hkey {path : String} (hp : path ∈ w.index.files.keys) :
      ∃ analysed, w.Holds path (some analysed) ∧
        Accounted pack config registry moments path analysed := by
    obtain ⟨outline, ho⟩ := (OrderedMap.mem_keys_iff _ _).mp hp
    obtain ⟨kept, hk, ha⟩ := h.held path
    cases kept with
    | none => exact absurd (ho.symm.trans hk.1) (by simp)
    | some analysed => exact ⟨analysed, hk, ha analysed rfl⟩
  refine ⟨w.index.files.nodup, ?_, ?_, ?_, h.balanced.functions, h.balanced.classes, ?_⟩
  · intro path hp
    obtain ⟨analysed, -, ha⟩ := hkey hp
    exact ha.normal
  · intro path
    obtain ⟨kept, ⟨hi, hd⟩, -⟩ := h.held path
    have hfiles : w.index.files.get? path = kept.map (·.outline) := hi
    rw [OrderedMap.mem_keys_iff, OrderedMap.mem_keys_iff, hfiles, hd]
    cases kept <;> simp
  · intro path outline he
    obtain ⟨analysed, ⟨hi, hd⟩, ha⟩ := hkey (OrderedMap.mem_keys_of_mem he)
    obtain ⟨content, ⟨m, hm, hread⟩, hdigest, ho⟩ := ha.source
    have hout : outline = analysed.outline :=
      Option.some.inj ((OrderedMap.mem_entries_iff.mp he).symm.trans hi)
    refine ⟨content, ⟨m, hm, hread, Moment.names_of_opened hread.1⟩, ?_, ?_⟩
    · rw [hd, ← hdigest]
      rfl
    · rw [hout]
      exact ho
  · rw [h.balanced.functions, h.balanced.classes]
    exact ⟨Int.natCast_nonneg _, Int.natCast_nonneg _⟩

end

/-- Parsers that find nothing in any source. -/
def blankPack : GrammarPack where
  loads _ := true
  parse _ _ := .tree (.whole default false)

/-- A registry of two languages. -/
def twoLanguages : Registry := ⟨OrderedMap.ofList [("java", "java"), ("python", "python")]⟩

/-- A Python file, and a link to it beside it. -/
def linkedTwice (content : Bytes) : FileSystem :=
  (FileSystem.bareWs.write (Path.parse "a.py") (.file content)).write
    (Path.parse "link.py") (.link (Path.parse "a.py"))

theorem lists_linkedTwice {content : Bytes} (h : content ∈ [[], [120]]) :
    (linkedTwice content).Lists { projectRoot := "/ws" } ["ws"] := by
  have hall : ∀ content ∈ [[], [120]],
      ((linkedTwice content).resolve (Path.parse "/ws")).toOption = some ["ws"] ∧
        (linkedTwice content).isDirectory ["ws"] = true ∧
        (linkedTwice content).comesAndGoes ["ws"] = false := by
    decide +kernel
  obtain ⟨hresolve, hdirectory, hsteady⟩ := hall content h
  exact ⟨eq_ok_of_toOption hresolve, hdirectory, rfl, nofun, hsteady⟩

theorem discover_linkedTwice {content : Bytes} (h : content ∈ [[], [120]]) :
    (discover (linkedTwice content) { projectRoot := "/ws" }).value
      = .ok [⟨"/ws/a.py", "python"⟩, ⟨"/ws/link.py", "python"⟩] := by
  have hall : ∀ content ∈ [[], [120]],
      ((linkedTwice content).volume.entries.keys.filterMap
          ((linkedTwice content).fileBelow? ["ws"])).filter
            (fun file => !(linkedTwice content).misses file.1)
          = [(["ws", "a.py"], content), (["ws", "link.py"], content)] ∧
        (Discovery.screen (linkedTwice content) { projectRoot := "/ws" } ["ws"]).toOption.map
            (fun s => [(["ws", "a.py"], content), (["ws", "link.py"], content)].filterMap s.source?)
          = some [⟨"/ws/a.py", "python"⟩, ⟨"/ws/link.py", "python"⟩] := by
    decide +kernel
  obtain ⟨hbelow, hscreen⟩ := hall content h
  have hfiles : (linkedTwice content).filesBelow ["ws"]
      = [(["ws", "a.py"], content), (["ws", "link.py"], content)] := by
    rw [FileSystem.filesBelow, hbelow]
    exact List.mergeSort_of_pairwise (by simp; decide +kernel)
  exact value_discover_of_filesBelow (lists_linkedTwice h) hfiles hscreen

/-- A scan enters a link under its own path, which is not resolved. -/
theorem linked_key_after_scan :
    "/ws/link.py" ∈ (reached blankPack { projectRoot := "/ws" } twoLanguages
        [⟨linkedTwice [], .scan {}⟩]).index.files.keys ∧
      (linkedTwice []).resolve (Path.parse "/ws/link.py") = .ok ["ws", "a.py"] ∧
      ¬(linkedTwice []).Resolved "/ws/link.py" := by
  have hresolve : (linkedTwice []).resolve (Path.parse "/ws/link.py") = .ok ["ws", "a.py"] :=
    eq_ok_of_toOption (by decide +kernel)
  refine ⟨?_, hresolve, ?_⟩
  · rw [reached_scan, value_scan]
    simp only [fresh, discover_linkedTwice List.mem_cons_self]
    decide +kernel
  · rintro ⟨here, htext, hr⟩
    rw [hresolve] at hr
    obtain rfl := Except.ok.inj hr
    exact absurd htext (by decide)

end SourceIndex.Workspace
