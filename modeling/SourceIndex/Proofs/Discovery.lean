import SourceIndex.Discovery
import SourceIndex.Proofs.FileSystem

/-!
# Which files are discovered

Every discovered file shows somewhere, and is named by the text of its location
(`exists_of_mem_discover`), which names no other (`nodup_paths_discover`).  If the root is a directory
that can be listed, **the discovered files are those that the configuration admits**
(`mem_discover_iff`): below the root, left out by no pattern, of a wanted language, and of a size that
is known and not too large.
-/

namespace SourceIndex

namespace FileSystem

variable {fs : FileSystem}

/-- A look at one place does not decide what the next look at another finds. -/
theorem misses_looked_of_ne {here there : Location} (h : there.text ≠ here.text) :
    (fs.looked here).misses there = fs.misses there := by
  unfold misses
  rw [comesAndGoes_looked]
  congr 1
  unfold looked
  split
  · rfl
  · split
    · simp [h]
    · simp [h]

/-- The root of a configuration is a directory that can be listed, with all that is in it. -/
structure Lists (fs : FileSystem) (config : Config) (root : Location) : Prop where
  resolves : fs.resolve (Path.parse config.projectRoot) = .ok root
  isDirectory : fs.isDirectory root = true
  listable : fs.unlistable = none
  opened : ∀ place ∈ fs.closed, ¬root <+: place
  /-- A directory that comes and goes is missed by one look or another before it is listed. -/
  steady : fs.comesAndGoes root = false

theorem misses_eq_false {here : Location} (h : fs.comesAndGoes here = false) :
    fs.misses here = false := by
  rw [misses, h, Bool.false_and]

/-- Where no directory is closed, nothing is passed over. -/
theorem lists_iff {root here : Location} (h : ∀ place ∈ fs.closed, ¬root <+: place) :
    fs.lists root here = true ↔ root.isPrefixOf here = true ∧ root.length < here.length := by
  have hnone : fs.closed.any (fun place =>
      root.isPrefixOf place && place.isPrefixOf here && place.length < here.length) = false := by
    refine List.any_eq_false.mpr ?_
    intro place hp
    simp [h place hp]
  rw [lists, hnone, Bool.not_false, Bool.and_true, Bool.and_eq_true, decide_eq_true_eq]

end FileSystem

namespace Discovery

open PatternEngine (Spec ignores compileUsable)

variable [PatternEngine] {fs : FileSystem} {config : Config} {root here : Location}
  {content : Bytes}

/-! ## Judging one file -/

theorem verdict_eq_taken {s : Screen} {language : String} :
    s.verdict here content = .taken language ↔
      ignores s.exclude (s.relative here) = false ∧
        s.gitignore.any (ignores · (s.relative here)) = false ∧
        here.path.language? = some language ∧ language ∈ s.languages ∧ s.isGone here = false ∧
        content.length ≤ s.maxFileBytes := by
  unfold Screen.verdict
  -- The cases follow the order of the tests; the first that fails decides.
  cases he : ignores s.exclude (s.relative here) with
  | true => simp
  | false =>
    cases hg : s.gitignore.any (ignores · (s.relative here)) with
    | true => simp
    | false =>
      cases hl : here.path.language? with
      | none => simp
      | some found =>
        by_cases hw : found ∈ s.languages
        · cases hgone : s.isGone here with
          | true => simp [hw]
          | false =>
            by_cases hsize : s.maxFileBytes < content.length
            · have hnot : ¬(content.length : Int) ≤ s.maxFileBytes := by omega
              simp [hw, hsize, hnot]
            · have hle : (content.length : Int) ≤ s.maxFileBytes := by omega
              simp only [Bool.or_self, Bool.false_eq_true, if_false, List.contains_eq_mem, hw,
                decide_true, Bool.not_true, hsize, Verdict.taken.injEq, Option.some.injEq, hle]
              constructor
              · rintro rfl
                exact ⟨trivial, trivial, rfl, hw, trivial, trivial⟩
              · rintro ⟨-, -, rfl, -⟩
                rfl
        · simp only [Bool.or_self, Bool.false_eq_true, if_false, List.contains_eq_mem, hw,
            decide_false, Bool.not_false, if_true, reduceCtorEq, Option.some.injEq, false_iff]
          rintro ⟨-, -, rfl, hm, -⟩
          exact hw hm

theorem source?_eq_some {s : Screen} {file : SourceFile} :
    s.source? (here, content) = some file ↔
      s.verdict here content = .taken file.language ∧ file.path = here.text := by
  obtain ⟨path, language⟩ := file
  unfold Screen.source?
  cases s.verdict here content with
  | ignored => simp
  | vanished => simp
  | oversized size => simp
  | taken found =>
    simp only [Option.some.injEq, SourceFile.mk.injEq, Verdict.taken.injEq]
    constructor
    · rintro ⟨rfl, rfl⟩
      exact ⟨rfl, rfl⟩
    · rintro ⟨rfl, rfl⟩
      exact ⟨rfl, rfl⟩

/-! ## The patterns of a workspace -/

/-- The lines of a content. -/
def linesOf (content : Bytes) : List String :=
  (Text.lines (Utf8.decode content)).map String.ofList

/-- The patterns of the ignore file that a configuration wants respected. -/
def ignoreFile (fs : FileSystem) (config : Config) (root : Location) :
    Except PatternError (Option Spec) :=
  if config.respectGitignore then (gitignoreSpec fs root).value else .ok none

/-- What the files below a root are judged by, if all patterns can be used. -/
def screen (fs : FileSystem) (config : Config) (root : Location) : Except PatternError Screen :=
  match (compileUsable "exclude patterns" config.exclude).value, ignoreFile fs config root with
  | .error e, _ => .error e
  | .ok _, .error e => .error e
  | .ok exclude, .ok gitignore =>
    .ok {
      root, exclude, gitignore,
      languages := config.languages,
      maxFileBytes := config.maxFileBytes,
      isGone := fs.comesAndGoes }

theorem value_below (fs : FileSystem) (config : Config) (root : Location) :
    (below fs config root).value = match screen fs config root with
      | .error e => .error (.failure (.badPattern e))
      | .ok s => (search fs s).value := by
  unfold below screen ignoreFile
  rw [Traced.value_bind]
  cases (compileUsable "exclude patterns" config.exclude).value with
  | error e => rfl
  | ok exclude =>
    cases config.respectGitignore with
    | false => rfl
    | true =>
      simp only [if_true, Traced.value_bind]
      cases (gitignoreSpec fs root).value with
      | error e => rfl
      | ok gitignore => rfl

theorem value_search (fs : FileSystem) (s : Screen) :
    (search fs s).value = match fs.unlistable with
      | some reason => .error (.unlistable reason)
      | none =>
        .ok ((if fs.misses s.root then [] else fs.filesBelow s.root).filterMap s.source?) := by
  unfold search
  cases fs.unlistable with
  | some reason => rfl
  | none =>
    show Except.ok (List.filterMap _ (list fs s.root).value) = _
    unfold list
    rw [Traced.value_bind]
    split <;> rfl

/-! ## The whole workspace -/

theorem settings_screen {s : Screen} (h : screen fs config root = .ok s) :
    s.root = root ∧ s.maxFileBytes = config.maxFileBytes := by
  unfold screen at h
  split at h
  · cases h
  · cases h
  · rw [← Except.ok.inj h]
    exact ⟨rfl, rfl⟩

/-- What a search finds shows somewhere, and is named by its location. -/
theorem exists_of_mem_search {s : Screen} {files : List SourceFile} {file : SourceFile}
    (h : (search fs s).value = .ok files) (hf : file ∈ files) :
    ∃ here content, fs.Shows here content ∧ file.path = here.text ∧
      here.path.language? = some file.language := by
  rw [value_search] at h
  split at h
  · cases h
  · obtain rfl := Except.ok.inj h
    obtain ⟨⟨here, content⟩, hm, hs⟩ := List.mem_filterMap.mp hf
    obtain ⟨hv, hpath⟩ := source?_eq_some.mp hs
    split at hm
    · cases hm
    · exact ⟨here, content, (FileSystem.mem_filesBelow.mp hm).1, hpath,
        (verdict_eq_taken.mp hv).2.2.1⟩

/-- What a search finds has as many names as files. -/
theorem nodup_paths_search {s : Screen} {files : List SourceFile}
    (h : (search fs s).value = .ok files) : (files.map (·.path)).Nodup := by
  have htexts : (fs.filesBelow s.root).Pairwise (fun a b => a.1.text ≠ b.1.text) := by
    refine (List.pairwise_map.mp (fs.nodup_filesBelow s.root)).imp_of_mem ?_
    intro a b ha hb hne he
    have hpa := (FileSystem.mem_filesBelow.mp ha).1.proper
    have hpb := (FileSystem.mem_filesBelow.mp hb).1.proper
    exact hne (text_injective hpa hpb he)
  rw [value_search] at h
  split at h
  · cases h
  · obtain rfl := Except.ok.inj h
    split
    · exact List.nodup_nil
    · refine List.pairwise_map.mpr (htexts.filterMap _ ?_)
      intro a a' hne b hb b' hb'
      rw [(source?_eq_some.mp hb).2, (source?_eq_some.mp hb').2]
      exact hne

/-- Whether patterns can be used and do not leave a path out. -/
def spares (patterns : Except PatternError (Option Spec)) (path : List Char) : Bool :=
  match patterns with
  | .ok spec => !spec.any (ignores · path)
  | .error _ => false

theorem spares_iff {patterns : Except PatternError (Option Spec)} {path : List Char} :
    spares patterns path = true ↔
      ∃ spec, patterns = .ok spec ∧ spec.any (ignores · path) = false := by
  cases patterns <;> simp [spares]

/-- A file passes all filters of a configuration, and has the given language. -/
structure Admits (fs : FileSystem) (config : Config) (root here : Location) (content : Bytes)
    (language : String) : Prop where
  below : root.isPrefixOf here = true ∧ root.length < here.length
  exclude : spares ((compileUsable "exclude patterns" config.exclude).value.map some)
    (Path.joined (here.drop root.length)) = true
  gitignore : spares (ignoreFile fs config root) (Path.joined (here.drop root.length)) = true
  suffix : here.path.language? = some language
  wanted : language ∈ config.languages
  /-- The size can be told. -/
  steady : fs.comesAndGoes here = false
  size : content.length ≤ config.maxFileBytes

/-- Where no link leads to a file, what is admitted is a file. -/
theorem Admits.file {language : String} (h : Admits fs config root here content language)
    (hp : fs.Plain root) (hs : fs.Shows here content) : fs.standing? here = some (.file content) :=
  hs.file (hp here content (List.isPrefixOf_iff_prefix.mp h.below.1) hs)

/-- Discovery comes to the file at a path, in the given language. -/
def Finds (fs : FileSystem) (config : Config) (root : Location) (path language : String) : Prop :=
  ∃ here content, fs.Shows here content ∧ path = here.text ∧
    Admits fs config root here content language

/-- The language that a file is found in is that of its suffix. -/
theorem Finds.language? {path language : String} (h : Finds fs config root path language) :
    (Path.parse path).language? = some language := by
  obtain ⟨here, content, hs, rfl, ha⟩ := h
  rw [parse_text hs.proper]
  exact ha.suffix

/-- A screen takes what the configuration admits. -/
theorem admits_iff_taken {s : Screen} {language : String} (h : screen fs config root = .ok s)
    (hb : root.isPrefixOf here = true ∧ root.length < here.length) :
    Admits fs config root here content language ↔ s.verdict here content = .taken language := by
  unfold screen at h
  split at h
  · cases h
  · cases h
  · next exclude gitignore he hg =>
    obtain rfl := Except.ok.inj h
    rw [verdict_eq_taken]
    constructor
    · rintro ⟨-, hi, hi', hl, hw, hst, hsz⟩
      simp only [spares, he, hg, Except.map, Option.any_some, Bool.not_eq_true'] at hi hi'
      exact ⟨hi, hi', hl, hw, hst, hsz⟩
    · rintro ⟨hi, hi', hl, hw, hst, hsz⟩
      refine ⟨hb, spares_iff.mpr ⟨some exclude, ?_, hi⟩, spares_iff.mpr ⟨gitignore, hg, hi'⟩, hl, hw,
        hst, hsz⟩
      rw [he]
      rfl

theorem Admits.screen {language : String} (h : Admits fs config root here content language) :
    ∃ s, screen fs config root = .ok s := by
  obtain ⟨exclude, he, -⟩ := spares_iff.mp h.exclude
  obtain ⟨gitignore, hg, -⟩ := spares_iff.mp h.gitignore
  rw [Discovery.screen, hg]
  cases hx : (compileUsable "exclude patterns" config.exclude).value with
  | error e => rw [hx] at he; cases he
  | ok exclude => exact ⟨_, rfl⟩

/-! ## Files that have not changed -/

section AgreesOutside

variable {changed : List Location} {before after : FileSystem}

/-- The ignore file counts only if it can be read. -/
theorem value_gitignoreSpec (fs : FileSystem) (root : Location) :
    (gitignoreSpec fs root).value =
      if fs.misses (root ++ [".gitignore"]) then .ok none
      else
        match fs.read (Location.path (root ++ [".gitignore"])) with
        | .error _ => .ok none
        | .ok content =>
          (compileUsable (Location.text (root ++ [".gitignore"])) (linesOf content)).value.map
            some := by
  unfold gitignoreSpec
  simp only [Traced.value_bind]
  cases fs.misses (root ++ [".gitignore"]) with
  | true => rfl
  | false =>
    cases hr : fs.read (Location.path (root ++ [".gitignore"])) with
    | error e =>
      simp only [Bool.false_or, Bool.false_eq_true, if_false]
      split <;> rfl
    | ok content =>
      rw [(FileSystem.read_eq_ok.mp hr).2]
      rfl

theorem ignoreFile_eq (h : FileSystem.AgreesOutside changed before after)
    (hb : before.volume.Settled root) (ha : after.volume.Settled root) (hpb : before.Plain root)
    (hpa : after.Plain root) (hn : root ++ [".gitignore"] ∉ changed) :
    ignoreFile before config root = ignoreFile after config root := by
  have hread (content : Bytes) :
      before.read (Location.path (root ++ [".gitignore"])) = .ok content ↔
        after.read (Location.path (root ++ [".gitignore"])) = .ok content := by
    refine ⟨h.read_in hb hpb (by decide) hn, h.symm.read_in ha hpa (by decide) hn⟩
  unfold ignoreFile
  rw [value_gitignoreSpec, value_gitignoreSpec, h.misses _ hn]
  cases hr : before.read (Location.path (root ++ [".gitignore"])) with
  | ok content => rw [(hread content).mp hr]
  | error e =>
    cases hr' : after.read (Location.path (root ++ [".gitignore"])) with
    | error e' => rfl
    | ok content =>
      rw [(hread content).mpr hr'] at hr
      cases hr

theorem Admits.congr {language : String} (h : Admits before config root here content language)
    (hi : ignoreFile before config root = ignoreFile after config root)
    (hs : before.comesAndGoes here = after.comesAndGoes here) :
    Admits after config root here content language := by
  obtain ⟨hbelow, hexclude, hgitignore, hsuffix, hwanted, hsteady, hsize⟩ := h
  rw [hi] at hgitignore
  rw [hs] at hsteady
  exact ⟨hbelow, hexclude, hgitignore, hsuffix, hwanted, hsteady, hsize⟩

end AgreesOutside

end Discovery

open Discovery

variable [PatternEngine] {fs : FileSystem} {config : Config} {root : Location}

/-- Discovery looks at the root, and then searches below it. -/
theorem value_discover_of_lists (h : fs.Lists config root) :
    (discover fs config).value = (below fs config root).value := by
  unfold discover
  rw [h.resolves]
  simp only [Traced.value_bind, FileSystem.looked_eq_self h.steady,
    FileSystem.misses_eq_false h.steady, h.isDirectory]
  rfl

/-- Every discovered file shows somewhere, and is named by the text of its location. -/
theorem exists_of_mem_discover {files : List SourceFile} {file : SourceFile}
    (h : (discover fs config).value = .ok files) (hf : file ∈ files) :
    ∃ here content, fs.Shows here content ∧ file.path = here.text ∧
      here.path.language? = some file.language := by
  unfold discover at h
  split at h
  · cases h
  · next root hr =>
    simp only [Traced.value_bind] at h
    split at h
    · obtain rfl := Except.ok.inj h
      cases hf
    · rw [value_below] at h
      split at h
      · cases h
      · obtain ⟨here, content, hs, hrest⟩ := exists_of_mem_search h hf
        exact ⟨here, content, FileSystem.shows_looked.mp (FileSystem.shows_looked.mp hs), hrest⟩

/-- No two discovered files have one path. -/
theorem nodup_paths_discover {files : List SourceFile}
    (h : (discover fs config).value = .ok files) : (files.map (·.path)).Nodup := by
  unfold discover at h
  split at h
  · cases h
  · next root hr =>
    simp only [Traced.value_bind] at h
    split at h
    · obtain rfl := Except.ok.inj h
      exact List.nodup_nil
    · rw [value_below] at h
      split at h
      · cases h
      · exact nodup_paths_search h

/-- Discovery searches by the patterns of the configuration. -/
theorem value_discover_of_screen {s : Screen} (h : fs.Lists config root)
    (hs : screen fs config root = .ok s) :
    (discover fs config).value = .ok ((fs.filesBelow root).filterMap s.source?) := by
  rw [value_discover_of_lists h, value_below, hs]
  show (search fs s).value = _
  rw [value_search, h.listable, (settings_screen hs).1, FileSystem.misses_eq_false h.steady]
  rfl

/-- Discovery comes to what the patterns make of the files that are listed. -/
theorem value_discover_of_filesBelow {files : List (Location × Bytes)} {found : List SourceFile}
    (h : fs.Lists config root) (hf : fs.filesBelow root = files)
    (hs : (screen fs config root).toOption.map (fun s => files.filterMap s.source?) = some found) :
    (discover fs config).value = .ok found := by
  cases hscreen : screen fs config root with
  | error e =>
    rw [hscreen] at hs
    cases hs
  | ok s =>
    rw [hscreen] at hs
    rw [value_discover_of_screen h hscreen, hf, ← Option.some.inj hs]

/-- **The discovered files are those that the configuration admits.** -/
theorem mem_discover_iff (h : fs.Lists config root) (file : SourceFile) :
    (∃ files, (discover fs config).value = .ok files ∧ file ∈ files) ↔
      Finds fs config root file.path file.language := by
  constructor
  · rintro ⟨files, hv, hf⟩
    cases hs : screen fs config root with
    | error e =>
      rw [value_discover_of_lists h, value_below, hs] at hv
      cases hv
    | ok s =>
      rw [value_discover_of_screen h hs] at hv
      obtain rfl := Except.ok.inj hv
      obtain ⟨⟨here, content⟩, hm, hsource⟩ := List.mem_filterMap.mp hf
      obtain ⟨hverdict, hpath⟩ := source?_eq_some.mp hsource
      obtain ⟨hshows, hlists, -⟩ := FileSystem.mem_filesBelow.mp hm
      have hbelow := FileSystem.below_of_lists hlists
      exact ⟨here, content, hshows, hpath, (admits_iff_taken hs hbelow).mpr hverdict⟩
  · rintro ⟨here, content, hshows, hpath, ha⟩
    obtain ⟨s, hs⟩ := ha.screen
    refine ⟨_, value_discover_of_screen h hs, List.mem_filterMap.mpr ⟨(here, content), ?_, ?_⟩⟩
    · exact FileSystem.mem_filesBelow.mpr
        ⟨hshows, (FileSystem.lists_iff h.opened).mpr ha.below, FileSystem.misses_eq_false ha.steady⟩
    · exact source?_eq_some.mpr ⟨(admits_iff_taken hs ha.below).mp ha, hpath⟩

end SourceIndex
