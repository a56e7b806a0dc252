import SourceIndex.Proofs.Workspace.Workers

/-!
# A scan, file by file

A scan and a request for one file go different ways: a scan takes files as discovery names them, in
the language that discovery found, and starts without entries; a request resolves its path, infers
the language, and compares digests before it analyses anything.  For discovered files the ways meet.

* Where nothing is held yet, indexing a file takes in what a scan takes in (`value_indexFile_of_absent`).
* Where the result of the file is held already, indexing it changes nothing and answers what is held
  (`value_indexFile_of_held`).

So **indexing the discovered files one by one comes to what a scan comes to, and doing it again does
nothing** (`indexFile_each_eq_scan`), if no discovered file is a link.  A link is entered by a scan
under its own path, and by a request under the path of the file that it leads to
(`link_indexed_elsewhere`).
-/

namespace SourceIndex.Workspace

variable {pack : GrammarPack} {config : Config} {registry : Registry} {fs : FileSystem}
variable {w u v : Workspace} {file : SourceFile} {files : List SourceFile}

/-! ## Discovered files -/

/-- A file is named by a proper location, in the language of its suffix. -/
def Named (file : SourceFile) : Prop :=
  ∃ here : Location, here.Proper ∧ file.path = here.text ∧
    here.path.language? = some file.language

theorem named_of_mem_discover [PatternEngine] (hd : (discover fs config).value = .ok files)
    (hf : file ∈ files) : Named file := by
  obtain ⟨here, content, hshows, hpath, hlanguage⟩ := exists_of_mem_discover hd hf
  exact ⟨here, hshows.proper, hpath, hlanguage⟩

/-- A discovered file that is no link has a resolved path. -/
theorem resolved_of_mem_discover [PatternEngine] (hd : (discover fs config).value = .ok files)
    (hf : file ∈ files) (hl : ¬fs.Linked file.path) : fs.Resolved file.path := by
  obtain ⟨here, content, hshows, hpath, -⟩ := exists_of_mem_discover hd hf
  rw [hpath] at hl ⊢
  exact hshows.resolved_iff.mpr hl

theorem Named.languageFor (h : Named file) :
    Workspace.languageFor none file.path = some file.language := by
  obtain ⟨here, hproper, hpath, hlanguage⟩ := h
  rw [Workspace.languageFor, hpath, parse_text hproper]
  exact hlanguage

/-- A file with a resolved path is indexed under that path. -/
theorem indexFile_exit_of_resolved {path : String} (h : fs.Resolved path) (w : Workspace)
    (pack : GrammarPack) :
    ∃ answer after, (w.indexFile pack fs path none).value = (.ok answer, after) ∧
      IndexExit w pack fs path none answer after := by
  obtain ⟨here, rfl, hres⟩ := h
  rcases indexFile_exit w pack fs here.text none with
    ⟨e, he, -⟩ | ⟨there, answer, after, hr, hv, hx⟩
  · rw [hres] at he
    cases he
  · rw [hres] at hr
    obtain rfl := Except.ok.inj hr
    exact ⟨answer, after, hv, hx⟩

/-! ## One file -/

theorem drop_of_absent {path : String} (h : w.Holds path none) : w.drop path = w := by
  have hindex : w.index.remove path = w.index := CodeIndex.remove_of_none h.1
  have hdigests : w.digests.erase path = w.digests := OrderedMap.erase_of_none h.2
  rw [drop, hindex, hdigests]

/-- Indexing a named file answers the entry that is current, or else goes by what an attempt at the
file comes to. -/
theorem IndexExit.by_attempt {answer : Option Outline} {after : Workspace} (h : Named file)
    (hx : IndexExit w pack fs file.path none answer after) :
    (∃ digest o, w.current? file.path digest = some o ∧ answer = some o ∧ after = w) ∨
      ((w.attempt pack fs file.path file.language).value = none ∧ answer = none ∧
        after = w.drop file.path) ∨
      ∃ analysed, (w.attempt pack fs file.path file.language).value = some analysed ∧
        w.current? file.path analysed.digest = none ∧ answer = some analysed.outline ∧
        after = w.store file.path analysed := by
  have hlanguage := h.languageFor
  cases hx with
  | noLanguage hl =>
    rw [hlanguage] at hl
    cases hl
  | unreadable hl hr =>
    refine Or.inr (Or.inl ⟨?_, rfl, rfl⟩)
    refine Option.eq_none_iff_forall_ne_some.mpr ?_
    intro analysed ha
    obtain ⟨content, hg, -⟩ := value_attempt_eq_some.mp ha
    rw [hg.readSource] at hr
    cases hr
  | unchanged hl hr hc => exact Or.inl ⟨_, _, hc, rfl, rfl⟩
  | failed hl hr hc ha =>
    rw [hlanguage] at hl
    obtain rfl := Option.some.inj hl
    refine Or.inr (Or.inl ⟨?_, rfl, rfl⟩)
    refine Option.eq_none_iff_forall_ne_some.mpr ?_
    intro analysed hv
    obtain ⟨content, hg, ho, -⟩ := value_attempt_eq_some.mp hv
    rw [hg.unique hr, ha] at ho
    cases ho
  | @analysed l content o hl hr hc ha =>
    rw [hlanguage] at hl
    obtain rfl := Option.some.inj hl
    refine Or.inr (Or.inr ⟨⟨o, Sha256.hexDigest content⟩, ?_, hc, rfl, rfl⟩)
    exact value_attempt_eq_some.mpr ⟨content, hr, ha, rfl⟩

/-- Takes the result of a file into the index, if there is one. -/
def takeUp (w : Workspace) (path : String) : Option Analysed → Workspace
  | none => w
  | some analysed => w.store path analysed

theorem value_indexFile_of_absent (pack : GrammarPack) (h : Named file)
    (hr : fs.Resolved file.path) (hw : w.Holds file.path none) :
    (w.indexFile pack fs file.path none).value.2
      = w.takeUp file.path (w.attempt pack fs file.path file.language).value := by
  obtain ⟨answer, after, hv, hx⟩ := indexFile_exit_of_resolved hr w pack
  rw [hv]
  rcases hx.by_attempt h with ⟨digest, o, hc, -⟩ | ⟨ha, -, rfl⟩ | ⟨analysed, ha, -, -, rfl⟩
  · exact absurd ((current?_eq_some.mp hc).1.symm.trans hw.1) (by simp)
  · rw [ha]
    exact drop_of_absent hw
  · rw [ha]
    rfl

theorem value_indexFile_of_held (h : Named file) (hr : fs.Resolved file.path)
    (hw : w.Holds file.path (w.attempt pack fs file.path file.language).value) :
    (w.indexFile pack fs file.path none).value = (.ok (w.index.get? file.path), w) := by
  obtain ⟨answer, after, hv, hx⟩ := indexFile_exit_of_resolved hr w pack
  rw [hv]
  rcases hx.by_attempt h with
    ⟨digest, o, hc, rfl, rfl⟩ | ⟨ha, rfl, rfl⟩ | ⟨analysed, ha, hc, -⟩
  · rw [(current?_eq_some.mp hc).1]
  · rw [ha] at hw
    rw [drop_of_absent hw, hw.1]
    rfl
  · -- What is held is current, so that nothing would have been analysed.
    rw [ha] at hw
    rw [current?_eq_some.mpr hw] at hc
    cases hc

/-! ## All files -/

/-- The requests for files, one after another. -/
def requests (fs : FileSystem) (files : List SourceFile) : List Moment :=
  files.map (fun file => ⟨fs, .indexFile file.path none⟩)

/-- Two workspaces hold the same entries, in the same order and with the same totals. -/
structure SameIndex (u v : Workspace) : Prop where
  index : u.index = v.index
  digests : u.digests = v.digests

theorem SameIndex.takeUp (h : SameIndex u v) (file : SourceFile) (result : Option Analysed) :
    SameIndex (u.takeUp file.path result) (v.record file result) := by
  cases result with
  | none => exact ⟨h.index, h.digests⟩
  | some analysed =>
    constructor
    · show u.index.add _ _ = v.index.add _ _
      rw [h.index]
    · show u.digests.insert _ _ = v.digests.insert _ _
      rw [h.digests]

theorem Holds.takeUp {there path : String} {kept : Option Analysed} (h : w.Holds there kept)
    (hne : there ≠ path) (result : Option Analysed) : (w.takeUp path result).Holds there kept := by
  cases result with
  | none => exact h
  | some analysed =>
    have hstore := h.store path analysed
    rwa [if_neg hne] at hstore

theorem settings_takeUp (w : Workspace) (path : String) (result : Option Analysed) :
    (w.takeUp path result).config = w.config ∧ (w.takeUp path result).registry = w.registry := by
  cases result <;> exact ⟨rfl, rfl⟩

section

variable [PatternEngine]

/-- Requests for files that have no entries yet go along with the loop of a scan. -/
theorem SameIndex.run (pack : GrammarPack) (h : SameIndex u v) (hc : u.config = w.config)
    (hr : u.registry = w.registry) (hnamed : ∀ file ∈ files, Named file)
    (hresolved : ∀ file ∈ files, fs.Resolved file.path)
    (habsent : ∀ file ∈ files, u.Holds file.path none)
    (hnodup : (files.map (·.path)).Nodup) :
    SameIndex (u.run pack (requests fs files)) (w.takeIn pack fs v files) := by
  induction files generalizing u v with
  | nil => exact h
  | cons file rest ih =>
    rw [List.map_cons, List.nodup_cons] at hnodup
    have hattempt : u.attempt pack fs file.path file.language
        = w.attempt pack fs file.path file.language := by
      rw [attempt_eq_fresh hc hr, attempt_eq_fresh (w := w) rfl rfl]
    have hstep := value_indexFile_of_absent pack (hnamed file List.mem_cons_self)
      (hresolved file List.mem_cons_self) (habsent file List.mem_cons_self)
    rw [hattempt] at hstep
    have hrun : u.run pack (requests fs (file :: rest))
        = (u.takeUp file.path (w.attempt pack fs file.path file.language).value).run pack
            (requests fs rest) := by
      rw [← hstep]
      rfl
    obtain ⟨hc', hr'⟩ := settings_takeUp u file.path
      (w.attempt pack fs file.path file.language).value
    rw [hrun]
    refine ih (h.takeUp file _) (hc'.trans hc) (hr'.trans hr)
      (fun f hf => hnamed f (List.mem_cons_of_mem file hf))
      (fun f hf => hresolved f (List.mem_cons_of_mem file hf)) ?_ hnodup.2
    intro f hf
    have hne : f.path ≠ file.path := by
      intro he
      exact hnodup.1 (he ▸ List.mem_map.mpr ⟨f, hf, rfl⟩)
    exact (habsent f (List.mem_cons_of_mem file hf)).takeUp hne _

/-- Where the results of all files are held, requests for them change nothing. -/
theorem run_requests_of_held (hnamed : ∀ file ∈ files, Named file)
    (hresolved : ∀ file ∈ files, fs.Resolved file.path)
    (hw : ∀ file ∈ files,
      w.Holds file.path (w.attempt pack fs file.path file.language).value) :
    w.run pack (requests fs files) = w := by
  refine run_of_perform ?_
  intro m hm
  obtain ⟨file, hf, rfl⟩ := List.mem_map.mp hm
  exact congrArg Prod.snd (value_indexFile_of_held (hnamed file hf) (hresolved file hf) (hw file hf))

/-- A scan that is not cancelled holds the results of all discovered files. -/
theorem holds_scan {conditions : Interleaving}
    (hd : (discover fs w.config).value = .ok files) (hu : ∀ i, conditions.cancelled i = false)
    (hf : file ∈ files) :
    (w.scan pack fs conditions).value.2.Holds file.path
      (w.attempt pack fs file.path file.language).value := by
  have hsame : ∀ f ∈ files, f.path = file.path →
      (w.attempt pack fs f.path f.language).value
        = (w.attempt pack fs file.path file.language).value := by
    intro f hm he
    have hlanguage := (named_of_mem_discover hd hm).languageFor
    rw [he, (named_of_mem_discover hd hf).languageFor] at hlanguage
    rw [he, Option.some.inj hlanguage]
  have hstart : Holds { w.reset with stats := { seen := files.length } } file.path none := ⟨rfl, rfl⟩
  have hloop := hstart.takeIn _ hsame
  rw [if_pos ⟨file, hf, rfl⟩, Option.or_none] at hloop
  rw [value_scan, hd]
  simp only [Scan.taken_of_uncancelled hu, List.take_length]
  exact hloop

/-- **Indexing the discovered files one by one comes to what a scan comes to**, if none of them is a
link: the same entries in the same order, the same digests, and the same totals.  After either of
them, indexing any of the files again, in any order and as often as one likes, changes nothing and
answers the entry that is held, if there is one. -/
theorem indexFile_each_eq_scan (pack : GrammarPack) (registry : Registry)
    {conditions : Interleaving} (hd : (discover fs config).value = .ok files)
    (hlinks : ∀ file ∈ files, ¬fs.Linked file.path) (hu : ∀ i, conditions.cancelled i = false) :
    SameIndex (reached pack config registry (requests fs files))
        (reached pack config registry [⟨fs, .scan conditions⟩]) ∧
      ∀ w, w = reached pack config registry (requests fs files) ∨
          w = reached pack config registry [⟨fs, .scan conditions⟩] →
        (∀ calls : List SourceFile, (∀ file ∈ calls, file ∈ files) →
          w.run pack (requests fs calls) = w) ∧
        ∀ file ∈ files,
          (w.indexFile pack fs file.path none).value = (.ok (w.index.get? file.path), w) := by
  have hnamed : ∀ file ∈ files, Named file := fun file hf => named_of_mem_discover hd hf
  have hresolved : ∀ file ∈ files, fs.Resolved file.path :=
    fun file hf => resolved_of_mem_discover hd hf (hlinks file hf)
  have hsame : SameIndex (reached pack config registry (requests fs files))
      (reached pack config registry [⟨fs, .scan conditions⟩]) := by
    have hstart : SameIndex (fresh config registry)
        { (fresh config registry).reset with stats := { seen := files.length } } := ⟨rfl, rfl⟩
    have hloop := hstart.run (w := fresh config registry) pack rfl rfl hnamed hresolved
      (fun file _ => ⟨rfl, rfl⟩) (nodup_paths_discover hd)
    rw [reached_scan, value_scan, show (fresh config registry).config = config from rfl, hd]
    simp only [Scan.taken_of_uncancelled hu, List.take_length]
    exact ⟨hloop.index, hloop.digests⟩
  refine ⟨hsame, ?_⟩
  intro w hw
  -- Both hold the results of all files, which do not depend on what else they hold.
  have hheld : ∀ file ∈ files,
      w.Holds file.path (w.attempt pack fs file.path file.language).value := by
    intro file hf
    have hscan : (reached pack config registry [⟨fs, .scan conditions⟩]).Holds file.path
        ((fresh config registry).attempt pack fs file.path file.language).value :=
      holds_scan hd hu hf
    rcases hw with rfl | rfl
    · have hsound := sound_reached pack config registry (requests fs files)
      rw [attempt_eq_fresh hsound.config_eq hsound.registry_eq]
      exact ⟨hsame.index ▸ hscan.1, hsame.digests ▸ hscan.2⟩
    · have hsound := sound_reached pack config registry [⟨fs, .scan conditions⟩]
      rw [attempt_eq_fresh hsound.config_eq hsound.registry_eq]
      exact hscan
  constructor
  · intro calls hcalls
    exact run_requests_of_held (fun file hf => hnamed file (hcalls file hf))
      (fun file hf => hresolved file (hcalls file hf)) (fun file hf => hheld file (hcalls file hf))
  · intro file hf
    exact value_indexFile_of_held (hnamed file hf) (hresolved file hf) (hheld file hf)

end

/-- The file in Java cannot be analysed, so that only the other one has an entry; asking for both
again, in the other order, is answered from what a scan has left, and leaves it. -/
theorem indexFile_each_javaAndPython :
    ∃ w, w = reached blankPack { projectRoot := "/ws" } pythonOnly [⟨javaAndPython, .scan {}⟩] ∧
      w.index.files.keys = ["/ws/b.py"] ∧
      w.run blankPack
        (requests javaAndPython [⟨"/ws/b.py", "python"⟩, ⟨"/ws/A.java", "java"⟩]) = w ∧
      (w.indexFile blankPack javaAndPython "/ws/A.java" none).value = (.ok none, w) := by
  have huncancelled : ∀ i, ({} : Interleaving).cancelled i = false := fun _ => rfl
  have hcount : javaAndPython.volume.linkCount = 0 := by decide +kernel
  have hlinks : ∀ file ∈ [⟨"/ws/A.java", "java"⟩, ⟨"/ws/b.py", "python"⟩],
      ¬javaAndPython.Linked (SourceFile.path file) :=
    fun file _ => FileSystem.not_linked_of_linkCount hcount file.path
  obtain ⟨-, hagain⟩ := indexFile_each_eq_scan blankPack pythonOnly discover_javaAndPython hlinks
    huncancelled
  obtain ⟨hruns, hanswers⟩ := hagain _ (Or.inr rfl)
  have hkeys : (reached blankPack { projectRoot := "/ws" } pythonOnly
      [⟨javaAndPython, .scan {}⟩]).index.files.keys = ["/ws/b.py"] := by
    rw [reached_scan, value_scan]
    simp only [fresh, discover_javaAndPython]
    decide +kernel
  refine ⟨_, rfl, hkeys, hruns _ (by decide), ?_⟩
  have hnone := OrderedMap.not_mem_keys_iff.mp
    (show "/ws/A.java" ∉ (reached blankPack { projectRoot := "/ws" } pythonOnly
      [⟨javaAndPython, .scan {}⟩]).index.files.keys by rw [hkeys]; decide)
  have hjava := hanswers ⟨"/ws/A.java", "java"⟩ (by decide)
  rwa [show CodeIndex.get? _ "/ws/A.java" = none from hnone] at hjava

/-- A scan enters a file and a link to it, and indexing both of them enters the file alone. -/
theorem link_indexed_elsewhere :
    (discover (linkedTwice []) { projectRoot := "/ws" }).value
        = .ok [⟨"/ws/a.py", "python"⟩, ⟨"/ws/link.py", "python"⟩] ∧
      (reached blankPack { projectRoot := "/ws" } twoLanguages
          [⟨linkedTwice [], .scan {}⟩]).index.files.keys = ["/ws/a.py", "/ws/link.py"] ∧
      (reached blankPack { projectRoot := "/ws" } twoLanguages
          (requests (linkedTwice []) [⟨"/ws/a.py", "python"⟩, ⟨"/ws/link.py", "python"⟩])
        ).index.files.keys = ["/ws/a.py"] := by
  refine ⟨discover_linkedTwice List.mem_cons_self, ?_, by decide +kernel⟩
  rw [reached_scan, value_scan]
  simp only [fresh, discover_linkedTwice List.mem_cons_self]
  decide +kernel

end SourceIndex.Workspace
