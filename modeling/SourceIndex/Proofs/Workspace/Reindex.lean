import SourceIndex.Proofs.Workspace.IndexFile

/-!
# Indexing changed files again

A workspace is *up to date* with a file system at a path if it holds there what a complete scan leaves
(`UpToDate`).  A complete scan makes a workspace up to date everywhere (`upToDate_scan`).

After a few files have changed (`Edit`), the workspace is still up to date where nothing has changed
(`UpToDate.of_unchanged`), and indexing a changed file brings it up to date there
(`Edit.upToDate_of_exit`) and changes nothing elsewhere.  So **indexing the changed files again, in
any order and as often as one likes, comes to what a new scan comes to** (`reindex_eq_rescan`), if no
link leads to a file.  A scan enters a link under its own path, but indexing goes to the file that the
link leads to, and leaves the entry of the link as it was (`link_left_behind`).
-/

namespace SourceIndex.Workspace

open Discovery

section

variable [PatternEngine]
variable {pack : GrammarPack} {config : Config} {registry : Registry}
variable {fs before after : FileSystem} {root : Location} {changed : List Location}
variable {w : Workspace} {path : String}

/-! ## What a complete scan leaves -/

/-- What a complete scan leaves for a path: the result of the file, if it is found there. -/
inductive Leaves (pack : GrammarPack) (config : Config) (registry : Registry) (fs : FileSystem)
    (root : Location) (path : String) : Option Analysed → Prop
  | found {language : String} (h : Finds fs config root path language) :
      Leaves pack config registry fs root path
        ((fresh config registry).attempt pack fs path language).value
  | absent (h : ∀ language, ¬Finds fs config root path language) :
      Leaves pack config registry fs root path none

theorem exists_leaves (pack : GrammarPack) (config : Config) (registry : Registry)
    (fs : FileSystem) (root : Location) (path : String) :
    ∃ kept, Leaves pack config registry fs root path kept := by
  by_cases h : ∃ language, Finds fs config root path language
  · obtain ⟨language, hf⟩ := h
    exact ⟨_, .found hf⟩
  · exact ⟨none, .absent (not_exists.mp h)⟩

/-- The workspace holds for a path what a complete scan leaves there. -/
def UpToDate (pack : GrammarPack) (config : Config) (registry : Registry) (fs : FileSystem)
    (root : Location) (w : Workspace) (path : String) : Prop :=
  ∀ kept, Leaves pack config registry fs root path kept → w.Holds path kept

omit [PatternEngine] in
theorem attempt_eq_fresh (hc : w.config = config) (hr : w.registry = registry)
    (path language : String) :
    w.attempt pack fs path language = (fresh config registry).attempt pack fs path language :=
  attempt_congr hc hr rfl language

/-- **A complete scan leaves for each path the result of the file that is found there**, and nothing
where none is found. -/
theorem upToDate_scan {conditions : Interleaving} (hc : w.config = config)
    (hr : w.registry = registry) (hl : fs.Lists config root)
    (hu : ∀ i, conditions.cancelled i = false) :
    UpToDate pack config registry fs root (w.scan pack fs conditions).value.2 path := by
  intro kept hk
  have hfinds := mem_discover_iff hl
  rw [value_scan, hc]
  cases hd : (discover fs config).value with
  | error e =>
    cases hk with
    | absent => exact ⟨rfl, rfl⟩
    | found h =>
      obtain ⟨files, hf, -⟩ := (hfinds ⟨path, _⟩).mpr h
      rw [hd] at hf
      cases hf
  | ok files =>
    simp only [hd, Except.ok.injEq, exists_eq_left'] at hfinds
    -- Nothing is cancelled, so that the loop goes through all files.
    simp only [Scan.taken_of_uncancelled hu, List.take_length]
    have hstart : Holds { w.reset with stats := { seen := files.length } } path none := ⟨rfl, rfl⟩
    cases hk with
    | @found language h =>
      have hall : ∀ file ∈ files, file.path = path →
          (w.attempt pack fs file.path file.language).value
            = ((fresh config registry).attempt pack fs path language).value := by
        intro file hf he
        have hlanguage := ((hfinds file).mp hf).language?
        rw [he, h.language?] at hlanguage
        rw [he, ← Option.some.inj hlanguage, attempt_eq_fresh hc hr]
      have hloop := hstart.takeIn _ hall
      rw [if_pos ⟨⟨path, language⟩, (hfinds _).mpr h, rfl⟩, Option.or_none] at hloop
      exact hloop
    | absent h =>
      have hnone : ∀ file ∈ files, file.path = path →
          (w.attempt pack fs file.path file.language).value = none := by
        intro file hf he
        have hfound := (hfinds file).mp hf
        rw [he] at hfound
        exact absurd hfound (h file.language)
      have hloop := hstart.takeIn none hnone
      rw [Option.or_none, ite_self] at hloop
      exact hloop

/-- What a complete scan leaves for a path was found there, and made from what the path gives. -/
theorem Leaves.exists_of_some {analysed : Analysed}
    (h : Leaves pack config registry fs root path (some analysed)) :
    ∃ language content, Finds fs config root path language ∧ fs.Gives path content ∧
      (Analyzer.mk pack registry config.strict).outline content path language
        = .ok analysed.outline ∧
      analysed.digest = Sha256.hexDigest content := by
  generalize hkept : some analysed = kept at h
  cases h with
  | absent => cases hkept
  | @found language hf =>
    obtain ⟨content, hg, ho, hd⟩ := value_attempt_eq_some.mp hkept.symm
    exact ⟨language, content, hf, hg, ho, hd⟩

/-- If a path is found and its content has an outline, a complete scan leaves that outline. -/
theorem Leaves.eq_some {kept : Option Analysed} {language found : String} {content : Bytes}
    {o : Outline} (h : Leaves pack config registry fs root path kept)
    (hf : Finds fs config root path found) (hl : (Path.parse path).language? = some language)
    (hg : fs.Gives path content)
    (ho : (Analyzer.mk pack registry config.strict).outline content path language = .ok o) :
    kept = some ⟨o, Sha256.hexDigest content⟩ := by
  cases h with
  | absent hnone => exact absurd hf (hnone found)
  | found h =>
    have hlanguage := h.language?
    rw [hl] at hlanguage
    obtain rfl := Option.some.inj hlanguage
    exact value_attempt_eq_some.mpr ⟨content, hg, ho, rfl⟩

theorem UpToDate.holds (h : UpToDate pack config registry fs root w path) :
    ∃ kept, w.Holds path kept := by
  obtain ⟨kept, hk⟩ := exists_leaves pack config registry fs root path
  exact ⟨kept, h kept hk⟩

theorem UpToDate.mono {v : Workspace} (h : UpToDate pack config registry fs root w path)
    (hv : ∀ kept, w.Holds path kept → v.Holds path kept) :
    UpToDate pack config registry fs root v path := by
  intro kept hk
  exact hv kept (h kept hk)

/-! ## Edits -/

/-- Between two file systems the files have changed in the given places and nowhere else.  The root
and its ignore file are the same, and a scan would look at every changed file that is still there. -/
structure Edit (config : Config) (root : Location) (changed : List Location)
    (before after : FileSystem) : Prop where
  lists : before.Lists config root ∧ after.Lists config root
  agrees : FileSystem.AgreesOutside changed before after
  ignoreFile : root ++ [".gitignore"] ∉ changed
  /-- A changed file that is there passes all filters. -/
  admitted : ∀ here ∈ changed, ∀ content, after.standing? here = some (.file content) →
    ∃ language, Admits after config root here content language
  /-- Digests tell the new content of a file from the old one. -/
  telling : ∀ here ∈ changed, ∀ old new, before.standing? here = some (.file old) →
    after.standing? here = some (.file new) → Sha256.hexDigest old = Sha256.hexDigest new → old = new

/-- What is found at a location without links stands there. -/
theorem file_of_finds {here : Location} {content : Bytes} {language : String}
    (hf : Finds fs config root here.text language) (hp : fs.Plain root) (hproper : here.Proper)
    (hg : fs.Gives here.text content) : fs.standing? here = some (.file content) := by
  obtain ⟨there, shown, hshows, htext, ha⟩ := hf
  obtain rfl := text_injective hproper hshows.proper htext
  have hreached := ((FileSystem.gives_text_iff hproper).mp hg).2
  rw [hshows.reached] at hreached
  exact (ha.file hp hshows).trans hreached

section Edit

variable (h : Edit config root changed before after)
variable (hplain : before.Plain root ∧ after.Plain root)

include h hplain

theorem Edit.ignoreFile_eq : Discovery.ignoreFile before config root
    = Discovery.ignoreFile after config root :=
  Discovery.ignoreFile_eq h.agrees (FileSystem.settled_of_resolve h.lists.1.resolves)
    (FileSystem.settled_of_resolve h.lists.2.resolves) hplain.1 hplain.2 h.ignoreFile

/-- Where nothing has changed, the same files are found. -/
theorem Edit.finds_iff {language : String} (hn : ∀ here ∈ changed, here.text ≠ path) :
    Finds before config root path language ↔ Finds after config root path language := by
  have hignore := h.ignoreFile_eq hplain
  constructor
  · rintro ⟨here, content, hs, rfl, ha⟩
    have hnot : here ∉ changed := fun hm => hn here hm rfl
    have hfile := (h.agrees.file here hnot content).mp (ha.file hplain.1 hs)
    exact ⟨here, content, FileSystem.shows_of_file hfile, rfl,
      ha.congr hignore (h.agrees.comesAndGoes here hnot)⟩
  · rintro ⟨here, content, hs, rfl, ha⟩
    have hnot : here ∉ changed := fun hm => hn here hm rfl
    have hfile := (h.agrees.file here hnot content).mpr (ha.file hplain.2 hs)
    exact ⟨here, content, FileSystem.shows_of_file hfile, rfl,
      ha.congr hignore.symm (h.agrees.comesAndGoes here hnot).symm⟩

/-- Where nothing has changed, an attempt comes to the same. -/
theorem Edit.attempt_eq {language : String} (hn : ∀ here ∈ changed, here.text ≠ path)
    (hf : Finds after config root path language) :
    (w.attempt pack before path language).value = (w.attempt pack after path language).value := by
  obtain ⟨here, stands, hs, rfl, ha⟩ := hf
  have hgives := h.agrees.symm.gives (fun hm => hn here hm rfl) (ha.file hplain.2 hs)
  apply Option.ext
  intro analysed
  simp only [value_attempt_eq_some, hgives]

/-- **Where nothing has changed, a workspace stays up to date.** -/
theorem UpToDate.of_unchanged (hu : UpToDate pack config registry before root w path)
    (hn : ∀ here ∈ changed, here.text ≠ path) :
    UpToDate pack config registry after root w path := by
  intro kept hk
  refine hu kept ?_
  cases hk with
  | found hf =>
    rw [← h.attempt_eq hplain hn hf]
    exact .found ((h.finds_iff hplain hn).mpr hf)
  | absent hnone => exact .absent (fun language hf => hnone language ((h.finds_iff hplain hn).mp hf))

omit hplain in
/-- A changed file that can be read is found. -/
theorem Edit.finds_of_gives {here : Location} {content : Bytes} (hm : here ∈ changed)
    (hs : after.volume.Settled here) (hg : after.Gives here.text content) :
    after.standing? here = some (.file content) ∧
      ∃ language, Finds after config root here.text language := by
  have hstands := hg.stands hs
  obtain ⟨language, ha⟩ := h.admitted here hm content hstands
  exact ⟨hstands, language, here, content, FileSystem.shows_of_file hstands, rfl, ha⟩

/-- An entry that is current after an edit is what a new scan leaves, although it was made before. -/
theorem Edit.holds_of_current {here : Location} {content : Bytes} {o : Outline}
    {kept : Option Analysed} (hm : here ∈ changed) (hs : after.volume.Settled here)
    (hu : UpToDate pack config registry before root w here.text)
    (hg : after.Gives here.text content)
    (hc : w.current? here.text (Sha256.hexDigest content) = some o)
    (hk : Leaves pack config registry after root here.text kept) : w.Holds here.text kept := by
  obtain ⟨hi, hd⟩ := current?_eq_some.mp hc
  obtain ⟨old, hold⟩ := exists_leaves pack config registry before root here.text
  have hheld := hu old hold
  cases old with
  | none => exact absurd (hi.symm.trans hheld.1) (by simp)
  | some analysed =>
    obtain ⟨l, made, hl, hmade, hout, hdigest⟩ := hold.exists_of_some
    obtain ⟨hstands, found, hf⟩ := h.finds_of_gives hm hs hg
    -- The digest that is held is that of the old content, and also that of the new one.
    have hsame : made = content := by
      refine h.telling here hm made content (file_of_finds hl hplain.1 hs.proper hmade) hstands ?_
      rw [← hdigest]
      exact Option.some.inj (hheld.2.symm.trans hd)
    rw [hsame] at hout hdigest
    rw [hk.eq_some hf hl.language? hg hout, ← hdigest]
    exact hheld

/-- **Indexing a changed file brings a workspace up to date there**, whichever way it ends. -/
theorem Edit.upToDate_of_exit {here : Location} {outline : Option Outline} {v : Workspace}
    (hc : w.config = config) (hr : w.registry = registry) (hm : here ∈ changed)
    (hs : after.volume.Settled here)
    (hu : UpToDate pack config registry before root w here.text ∨
      UpToDate pack config registry after root w here.text)
    (hx : IndexExit w pack after here.text none outline v) :
    UpToDate pack config registry after root v here.text := by
  intro kept hk
  obtain ⟨old, hold⟩ : ∃ old, w.Holds here.text old := hu.elim UpToDate.holds UpToDate.holds
  have hdrop : (w.drop here.text).Holds here.text none := by
    have hgone := hold.drop here.text
    rwa [if_pos rfl] at hgone
  cases hx with
  | noLanguage hl =>
    -- A scan finds no file without a language, neither before nor after.
    have hnone (fs : FileSystem) : Leaves pack config registry fs root here.text none := by
      refine .absent (fun language hf => ?_)
      rw [languageFor, hf.language?] at hl
      cases hl
    cases kept with
    | none => exact hu.elim (· none (hnone before)) (· none hk)
    | some analysed =>
      obtain ⟨l, -, hl', -⟩ := hk.exists_of_some
      rw [languageFor, hl'.language?] at hl
      cases hl
  | unreadable hl he =>
    cases kept with
    | none => exact hdrop
    | some analysed =>
      obtain ⟨-, content, -, hg, -⟩ := hk.exists_of_some
      rw [hg.readSource] at he
      cases he
  | unchanged hl hg hcur =>
    rcases hu with hu | hu
    · exact h.holds_of_current hplain hm hs hu hg hcur hk
    · exact hu kept hk
  | failed hl hg hcur ho =>
    cases kept with
    | none => exact hdrop
    | some analysed =>
      obtain ⟨l, content, hl', hg', ho', -⟩ := hk.exists_of_some
      rw [languageFor, hl'.language?] at hl
      obtain rfl := Option.some.inj hl
      rw [analyzer, hc, hr, hg.unique hg', ho'] at ho
      cases ho
  | @analysed l content o hl hg hcur ho =>
    obtain ⟨-, found, hf⟩ := h.finds_of_gives hm hs hg
    rw [analyzer, hc, hr] at ho
    rw [hk.eq_some hf hl hg ho]
    have hstore := hold.store here.text ⟨o, Sha256.hexDigest content⟩
    rwa [if_pos rfl] at hstore

end Edit

/-! ## Indexing the changed files one by one -/

/-- One of the calls that are still to come indexes the file at a path. -/
def IsPending (fs : FileSystem) (pending : List String) (path : String) : Prop :=
  ∃ call ∈ pending, ∃ here : Location, fs.resolve (Path.parse call) = .ok here ∧ here.text = path

/-- The changed files are being indexed again.  Everywhere the workspace is up to date with what was
before or with what is now, and it is so with what is now wherever nothing is pending. -/
structure Underway (pack : GrammarPack) (config : Config) (registry : Registry)
    (before after : FileSystem) (root : Location) (pending : List String) (w : Workspace) :
    Prop where
  config_eq : w.config = config
  registry_eq : w.registry = registry
  eitherWay : ∀ path, UpToDate pack config registry before root w path ∨
    UpToDate pack config registry after root w path
  settled : ∀ path, ¬IsPending after pending path →
    UpToDate pack config registry after root w path

/-- After a complete scan before the edit, only the changed files are pending. -/
theorem Edit.underway_scan {history : List Moment} {conditions : Interleaving} {calls : List String}
    (h : Edit config root changed before after) (hplain : before.Plain root ∧ after.Plain root)
    (hs : Sound pack config registry history w)
    (hu : ∀ i, conditions.cancelled i = false)
    (hall : ∀ here ∈ changed, ∃ call ∈ calls, after.resolve (Path.parse call) = .ok here) :
    Underway pack config registry before after root calls
      (w.scan pack before conditions).value.2 := by
  have hscan : Sound pack config registry (history ++ [⟨before, .scan conditions⟩])
      (w.scan pack before conditions).value.2 := hs.perform _
  have hbefore : ∀ path, UpToDate pack config registry before root
      (w.scan pack before conditions).value.2 path :=
    fun path => upToDate_scan hs.config_eq hs.registry_eq h.lists.1 hu
  refine ⟨hscan.config_eq, hscan.registry_eq, fun path => Or.inl (hbefore path), ?_⟩
  intro path hn
  refine UpToDate.of_unchanged h hplain (hbefore path) ?_
  intro here hm htext
  obtain ⟨call, hcall, hres⟩ := hall here hm
  exact hn ⟨call, hcall, here, hres, htext⟩

/-- One call takes its file from what is pending. -/
theorem Underway.indexFile {call : String} {rest : List String}
    (hw : Underway pack config registry before after root (call :: rest) w)
    (h : Edit config root changed before after) (hplain : before.Plain root ∧ after.Plain root)
    (hcall : ∃ here ∈ changed, after.resolve (Path.parse call) = .ok here) :
    Underway pack config registry before after root rest
      (w.indexFile pack after call none).value.2 := by
  obtain ⟨here, hm, hres⟩ := hcall
  rcases indexFile_exit w pack after call none with ⟨e, hres', -⟩ | ⟨there, o, v, hres', hv, hx⟩
  · rw [hres] at hres'
    cases hres'
  · rw [hres] at hres'
    obtain rfl := Except.ok.inj hres'
    rw [hv]
    have hhere := h.upToDate_of_exit hplain hw.config_eq hw.registry_eq hm
      (FileSystem.settled_of_resolve hres) (hw.eitherWay here.text) hx
    obtain ⟨hc, hr⟩ := hx.settings_eq
    refine ⟨hc.trans hw.config_eq, hr.trans hw.registry_eq, ?_, ?_⟩
    · intro path
      by_cases hp : path = here.text
      · rw [hp]
        exact Or.inr hhere
      · have hframe : ∀ kept, w.Holds path kept → v.Holds path kept :=
          fun kept => hx.holds_of_ne hp
        exact (hw.eitherWay path).imp (·.mono hframe) (·.mono hframe)
    · intro path hn
      by_cases hp : path = here.text
      · rw [hp]
        exact hhere
      · refine (hw.settled path ?_).mono (fun kept => hx.holds_of_ne hp)
        rintro ⟨other, ho, place, hplace, htext⟩
        rcases List.mem_cons.mp ho with rfl | ho
        · rw [hres] at hplace
          obtain rfl := Except.ok.inj hplace
          exact hp htext.symm
        · exact hn ⟨other, ho, place, hplace, htext⟩

/-- After all calls nothing is pending. -/
theorem Underway.run {calls : List String}
    (hw : Underway pack config registry before after root calls w)
    (h : Edit config root changed before after) (hplain : before.Plain root ∧ after.Plain root)
    (hcalls : ∀ call ∈ calls, ∃ here ∈ changed, after.resolve (Path.parse call) = .ok here) :
    Underway pack config registry before after root []
      (w.run pack (calls.map (fun call => ⟨after, .indexFile call none⟩))) := by
  -- Each call takes its file from what is pending, whether or not it has been indexed before.
  induction calls generalizing w with
  | nil => exact hw
  | cons call rest ih =>
    exact ih (hw.indexFile h hplain (hcalls call List.mem_cons_self))
      (fun other ho => hcalls other (List.mem_cons_of_mem call ho))

/-! ## A new scan comes to the same -/

/-- Two workspaces have the same outlines and digests, and the same totals. -/
structure SameEntries (w v : Workspace) : Prop where
  outlines : ∀ path, w.index.get? path = v.index.get? path
  digests : ∀ path, w.digests.get? path = v.digests.get? path
  functions : w.index.totalFunctions = v.index.totalFunctions
  classes : w.index.totalClasses = v.index.totalClasses

/-- Workspaces that are up to date everywhere have the same entries. -/
theorem sameEntries_of_upToDate {v : Workspace} (hw : w.index.Balanced) (hv : v.index.Balanced)
    (h : ∀ path, UpToDate pack config registry fs root w path)
    (h' : ∀ path, UpToDate pack config registry fs root v path) : SameEntries w v := by
  have hboth : ∀ path, ∃ kept, w.Holds path kept ∧ v.Holds path kept := by
    intro path
    obtain ⟨kept, hk⟩ := exists_leaves pack config registry fs root path
    exact ⟨kept, h path kept hk, h' path kept hk⟩
  have houtlines : ∀ path, w.index.get? path = v.index.get? path := by
    intro path
    obtain ⟨kept, hk, hk'⟩ := hboth path
    exact hk.1.trans hk'.1.symm
  obtain ⟨hf, hc⟩ := CodeIndex.totals_eq_of_get?_eq hw hv houtlines
  refine ⟨houtlines, ?_, hf, hc⟩
  intro path
  obtain ⟨kept, hk, hk'⟩ := hboth path
  exact hk.2.trans hk'.2.symm

/-- **Indexing the changed files again comes to what a new scan comes to**, if no link below the root
leads to a file.  Before, the workspace may have been through anything, so long as it was last scanned
completely; the files may be indexed in any order, repeatedly, and by whatever paths lead to them. -/
theorem reindex_eq_rescan (pack : GrammarPack) (registry : Registry)
    (h : Edit config root changed before after) (hplain : before.Plain root ∧ after.Plain root)
    (history : List Moment) {first second : Interleaving}
    (hfirst : ∀ i, first.cancelled i = false)
    (hsecond : ∀ i, second.cancelled i = false) {calls : List String}
    (hcalls : ∀ call ∈ calls, ∃ here ∈ changed, after.resolve (Path.parse call) = .ok here)
    (hall : ∀ here ∈ changed, ∃ call ∈ calls, after.resolve (Path.parse call) = .ok here) :
    SameEntries
      (reached pack config registry (history ++ ⟨before, .scan first⟩ ::
        calls.map (fun call => ⟨after, .indexFile call none⟩)))
      (reached pack config registry [⟨after, .scan second⟩]) := by
  have hstart := h.underway_scan hplain (sound_reached pack config registry history) hfirst hall
  have hend := hstart.run h hplain hcalls
  have hupdated : ∀ path, UpToDate pack config registry after root
      (reached pack config registry (history ++ ⟨before, .scan first⟩ ::
        calls.map (fun call => ⟨after, .indexFile call none⟩))) path := by
    intro path
    rw [reached, Workspace.run, List.foldl_append, List.foldl_cons]
    exact hend.settled path (by rintro ⟨call, hcall, -⟩; cases hcall)
  have hrescanned : ∀ path, UpToDate pack config registry after root
      (reached pack config registry [⟨after, .scan second⟩]) path :=
    fun path => upToDate_scan rfl rfl h.lists.2 hsecond
  exact sameEntries_of_upToDate (sound_reached ..).balanced (sound_reached ..).balanced hupdated
    hrescanned

end

/-- The file system with empty files in `/ws`, and the directories that they need. -/
def emptyFiles (names : List String) : FileSystem :=
  names.foldl (fun fs name => fs.write (Path.parse name) (.file [])) FileSystem.bareWs

/-- Two Python files. -/
def oldFiles : FileSystem := emptyFiles ["kept.py", "src/old.py"]

/-- One of them has gone with its directory, and another has come with its own. -/
def newFiles : FileSystem := emptyFiles ["kept.py", "lib/new.py"]

theorem edit_oldFiles :
    Edit { projectRoot := "/ws" } ["ws"]
      [["ws", "src", "old.py"], ["ws", "lib", "new.py"], ["ws", "kept.py"]] oldFiles newFiles where
  lists := by
    constructor
    · exact ⟨eq_ok_of_toOption (by decide +kernel), by decide +kernel, rfl, nofun, by decide +kernel⟩
    · exact ⟨eq_ok_of_toOption (by decide +kernel), by decide +kernel, rfl, nofun, by decide +kernel⟩
  agrees := by
    apply FileSystem.agreesOutside_of_entries <;> decide +kernel
  ignoreFile := by decide
  admitted := by
    intro here hm content he
    rw [List.mem_cons, List.mem_cons, List.mem_singleton] at hm
    rcases hm with rfl | rfl | rfl
    · cases he
    · have hempty : some (Entry.file []) = some (Entry.file content) := he
      obtain rfl : [] = content := by simpa using hempty
      exact ⟨"python", by decide, by decide +kernel, by decide +kernel, by decide +kernel, by decide,
        by decide +kernel, by decide⟩
    · have hempty : some (Entry.file []) = some (Entry.file content) := he
      obtain rfl : [] = content := by simpa using hempty
      exact ⟨"python", by decide, by decide +kernel, by decide +kernel, by decide +kernel, by decide,
        by decide +kernel, by decide⟩
  telling := by
    intro here hm old new hb ha _
    rw [List.mem_cons, List.mem_cons, List.mem_singleton] at hm
    rcases hm with rfl | rfl | rfl
    · cases ha
    · cases hb
    · have hold : some (Entry.file []) = some (Entry.file old) := hb
      have hnew : some (Entry.file []) = some (Entry.file new) := ha
      simpa using hold.symm.trans hnew

theorem plain_oldFiles : oldFiles.Plain ["ws"] ∧ newFiles.Plain ["ws"] :=
  ⟨FileSystem.plain_of_linkCount (by decide +kernel) _,
    FileSystem.plain_of_linkCount (by decide +kernel) _⟩

/-- The new file is indexed twice, by different paths, and the others in between. -/
theorem oldFiles_reindexed : SameEntries
    (reached blankPack { projectRoot := "/ws" } twoLanguages
      ([] ++ ⟨oldFiles, .scan {}⟩ ::
        ["/ws/lib/new.py", "kept.py", "lib/../src/old.py", "lib/new.py"].map (fun call =>
          ⟨newFiles, .indexFile call none⟩)))
    (reached blankPack { projectRoot := "/ws" } twoLanguages [⟨newFiles, .scan {}⟩]) := by
  have hcalls : ∀ call ∈ ["/ws/lib/new.py", "kept.py", "lib/../src/old.py", "lib/new.py"],
      ∃ here ∈ [["ws", "src", "old.py"], ["ws", "lib", "new.py"], ["ws", "kept.py"]],
        (newFiles.resolve (Path.parse call)).toOption = some here := by decide +kernel
  have hall : ∀ here ∈ [["ws", "src", "old.py"], ["ws", "lib", "new.py"], ["ws", "kept.py"]],
      ∃ call ∈ ["/ws/lib/new.py", "kept.py", "lib/../src/old.py", "lib/new.py"],
        (newFiles.resolve (Path.parse call)).toOption = some here := by decide +kernel
  refine reindex_eq_rescan blankPack twoLanguages edit_oldFiles plain_oldFiles [] (fun _ => rfl)
    (fun _ => rfl) ?_ ?_
  · intro call hc
    obtain ⟨here, hm, hr⟩ := hcalls call hc
    exact ⟨here, hm, eq_ok_of_toOption hr⟩
  · intro here hm
    obtain ⟨call, hc, hr⟩ := hall here hm
    exact ⟨call, hc, eq_ok_of_toOption hr⟩

theorem edit_linkedTwice :
    Edit { projectRoot := "/ws" } ["ws"] [["ws", "a.py"]] (linkedTwice []) (linkedTwice [120]) where
  lists := ⟨lists_linkedTwice (by decide), lists_linkedTwice (by decide)⟩
  agrees := by
    apply FileSystem.agreesOutside_of_entries <;> decide +kernel
  ignoreFile := by decide
  admitted := by
    intro here hm content he
    obtain rfl := List.mem_singleton.mp hm
    have hcontent : (linkedTwice [120]).standing? ["ws", "a.py"] = some (.file [120]) := by
      decide +kernel
    obtain rfl : [120] = content := by simpa using hcontent.symm.trans he
    exact ⟨"python", by decide, by decide +kernel, by decide +kernel, by decide +kernel, by decide,
      by decide +kernel, by decide⟩
  telling := by
    intro here hm old new hb ha hsame
    obtain rfl := List.mem_singleton.mp hm
    have hold : (linkedTwice []).standing? ["ws", "a.py"] = some (.file []) := by decide +kernel
    have hnew : (linkedTwice [120]).standing? ["ws", "a.py"] = some (.file [120]) := by decide +kernel
    obtain rfl : [] = old := by simpa using hold.symm.trans hb
    obtain rfl : [120] = new := by simpa using hnew.symm.trans ha
    exact absurd hsame (by decide +kernel)

/-- A link that was scanned keeps the entry of the old content, whether the file that it leads to is
indexed again by its own path or by that of the link; a new scan makes the entry anew. -/
theorem link_left_behind :
    Edit { projectRoot := "/ws" } ["ws"] [["ws", "a.py"]] (linkedTwice []) (linkedTwice [120]) ∧
    (∀ call ∈ ["/ws/a.py", "/ws/link.py"],
      (linkedTwice [120]).resolve (Path.parse call) = .ok ["ws", "a.py"]) ∧
    ¬SameEntries
      (reached blankPack { projectRoot := "/ws" } twoLanguages
        (⟨linkedTwice [], .scan {}⟩ :: ["/ws/a.py", "/ws/link.py"].map (fun call =>
          ⟨linkedTwice [120], .indexFile call none⟩)))
      (reached blankPack { projectRoot := "/ws" } twoLanguages [⟨linkedTwice [120], .scan {}⟩]) := by
  have hresolve : ∀ call ∈ ["/ws/a.py", "/ws/link.py"],
      ((linkedTwice [120]).resolve (Path.parse call)).toOption = some ["ws", "a.py"] := by
    decide +kernel
  refine ⟨edit_linkedTwice, fun call hc => eq_ok_of_toOption (hresolve call hc), ?_⟩
  intro hsame
  have hdigest := hsame.digests "/ws/link.py"
  have hstale : (reached blankPack { projectRoot := "/ws" } twoLanguages
      (⟨linkedTwice [], .scan {}⟩ :: ["/ws/a.py", "/ws/link.py"].map (fun call =>
        ⟨linkedTwice [120], .indexFile call none⟩))).digests.get? "/ws/link.py"
        = some (Sha256.hexDigest []) := by
    rw [reached_scan, value_scan]
    simp only [fresh, discover_linkedTwice List.mem_cons_self]
    decide +kernel
  have hfresh : (reached blankPack { projectRoot := "/ws" } twoLanguages
      [⟨linkedTwice [120], .scan {}⟩]).digests.get? "/ws/link.py"
        = some (Sha256.hexDigest [120]) := by
    rw [reached_scan, value_scan]
    simp only [fresh, discover_linkedTwice (List.mem_cons_of_mem _ List.mem_cons_self)]
    decide +kernel
  rw [hstale, hfresh] at hdigest
  exact absurd (Option.some.inj hdigest) (by decide +kernel)

end SourceIndex.Workspace
