import SourceIndex.Proofs.Workspace.Returns

/-!
# Exactly the source files, in order

If the root is a directory that can be listed, no link below it leads to a file, and no pattern is
malformed, discovery comes to an end, and **what it lists are exactly the source files below the root,
in the order of their components** (`discover_sorted_mem_iff`).  A source file is told by what stands
in the file system and by what the kept lines of the two lists of patterns say; nothing else is asked
of it.

Components are compared before what comes after them, so that a directory `b` and all that is in it
come before `b-c` and `b.py`, though the character `/` comes after `-` and `.`.
-/

namespace SourceIndex

namespace FileSystem

/-- What is found by two looks in a row does not come and go. -/
theorem comesAndGoes_eq_false_iff {fs : FileSystem} {here : Location} :
    fs.comesAndGoes here = false ↔
      fs.misses here = false ∧ (fs.looked here).misses here = false := by
  constructor
  · intro h
    rw [looked_eq_self h]
    exact ⟨misses_eq_false h, misses_eq_false h⟩
  · rintro ⟨hfirst, hsecond⟩
    cases h : fs.comesAndGoes here with
    | false => rfl
    | true =>
      rw [misses_looked h, hfirst] at hsecond
      cases hsecond

end FileSystem

namespace Discovery

section

open PatternEngine (compileUsable flaw? ignoredBy exists_compileUsable)

variable [PatternEngine] {fs : FileSystem} {config : Config} {root : Location}

/-! ## The patterns of a workspace, line by line -/

/-- No pattern that is read for a root is malformed. -/
def PatternsCompile (fs : FileSystem) (config : Config) (root : Location) : Prop :=
  ∀ line ∈ patternLines fs config root, flaw? line = none

/-- A missing ignore file, and one that cannot be read, come to what no lines come to. -/
theorem exists_gitignoreSpec (h : ∀ line ∈ ignoreLines fs root, flaw? line = none) :
    ∃ spec, (gitignoreSpec fs root).value = .ok spec ∧
      ∀ path, spec.any (PatternEngine.ignores · path) = ignoredBy (ignoreLines fs root) path := by
  rw [value_gitignoreSpec]
  unfold ignoreLines at h ⊢
  split
  · exact ⟨none, rfl, fun _ => rfl⟩
  · next hseen =>
    rw [if_neg hseen] at h
    cases hr : fs.read (Location.path (root ++ [".gitignore"])) with
    | error e => exact ⟨none, rfl, fun _ => rfl⟩
    | ok content =>
      rw [hr] at h
      obtain ⟨spec, hspec, hignores⟩ :=
        exists_compileUsable (Location.text (root ++ [".gitignore"])) h
      exact ⟨some spec, by simp only [hspec]; rfl, hignores⟩

namespace PatternsCompile

variable (h : PatternsCompile fs config root)

include h

theorem exists_exclude :
    ∃ spec, (compileUsable "exclude patterns" config.exclude).value = .ok spec ∧
      ∀ path, PatternEngine.ignores spec path = ignoredBy config.exclude path :=
  exists_compileUsable _ (fun line hl => h line (List.mem_append_left _ hl))

theorem exists_ignoreFile :
    ∃ spec, ignoreFile fs config root = .ok spec ∧
      ∀ path, spec.any (PatternEngine.ignores · path) = true ↔
        config.respectGitignore = true ∧ ignoredBy (ignoreLines fs root) path = true := by
  unfold ignoreFile
  split
  · next hrespect =>
    have hlines : ∀ line ∈ ignoreLines fs root, flaw? line = none := by
      intro line hl
      refine h line (List.mem_append_right _ ?_)
      rwa [if_pos hrespect]
    obtain ⟨spec, hspec, hignores⟩ := exists_gitignoreSpec hlines
    refine ⟨spec, hspec, ?_⟩
    intro path
    rw [hignores]
    exact (and_iff_right hrespect).symm
  · next hrespect => exact ⟨none, rfl, fun path => by simp [hrespect]⟩

/-- If no pattern is malformed, the files can be judged. -/
theorem exists_screen : ∃ s, screen fs config root = .ok s := by
  obtain ⟨exclude, hexclude, -⟩ := h.exists_exclude
  obtain ⟨gitignore, hgitignore, -⟩ := h.exists_ignoreFile
  rw [screen, hexclude, hgitignore]
  exact ⟨_, rfl⟩

/-- What the configuration admits, in terms of what the lines say. -/
theorem admits_iff {below : Location} {content : Bytes} {language : String} :
    Admits fs config root (root ++ below) content language ↔
      below ≠ [] ∧ ignoredBy config.exclude (Path.joined below) = false ∧
        (config.respectGitignore = true →
          ignoredBy (ignoreLines fs root) (Path.joined below) = false) ∧
        (Location.path (root ++ below)).language? = some language ∧ language ∈ config.languages ∧
        fs.comesAndGoes (root ++ below) = false ∧ content.length ≤ config.maxFileBytes := by
  have hbelow : (root.isPrefixOf (root ++ below) = true ∧ root.length < (root ++ below).length) ↔
      below ≠ [] := by
    rw [List.isPrefixOf_iff_prefix, List.length_append, ← List.length_pos_iff]
    exact ⟨fun hb => by omega, fun hb => ⟨List.prefix_append root below, by omega⟩⟩
  have hfile : spares (ignoreFile fs config root) (Path.joined below) = true ↔
      (config.respectGitignore = true →
        ignoredBy (ignoreLines fs root) (Path.joined below) = false) := by
    obtain ⟨spec, hspec, hignores⟩ := h.exists_ignoreFile
    rw [hspec, spares, Bool.not_eq_true', Bool.eq_false_iff, ne_eq, hignores, not_and,
      Bool.not_eq_true]
  have hexclude : spares ((compileUsable "exclude patterns" config.exclude).value.map some)
      (Path.joined below) = true ↔ ignoredBy config.exclude (Path.joined below) = false := by
    obtain ⟨spec, hspec, hignores⟩ := h.exists_exclude
    rw [hspec, ← hignores]
    simp [spares, Except.map]
  constructor
  · rintro ⟨hb, hx, hg, hl, hw, hs, hsize⟩
    rw [List.drop_left] at hx hg
    exact ⟨hbelow.mp hb, hexclude.mp hx, hfile.mp hg, hl, hw, hs, hsize⟩
  · rintro ⟨hb, hx, hg, hl, hw, hs, hsize⟩
    refine ⟨hbelow.mpr hb, ?_, ?_, hl, hw, hs, hsize⟩
    · rw [List.drop_left]
      exact hexclude.mpr hx
    · rw [List.drop_left]
      exact hfile.mpr hg

end PatternsCompile

/-- What passes a screen stays in the order of the locations. -/
theorem pairwise_source? (s : Screen) :
    (((fs.filesBelow root).filterMap s.source?).map
      (fun file => (Path.parse file.path).parts)).Pairwise (· < ·) := by
  have hparts : (fs.filesBelow root).Pairwise
      (fun a b => (Path.parse a.1.text).parts < (Path.parse b.1.text).parts) := by
    -- The path of a file reads back as its location, so that parts are ordered as locations are.
    refine (List.pairwise_map.mp (fs.pairwise_filesBelow root)).imp_of_mem ?_
    intro a b ha hb hlt
    rw [parse_text (FileSystem.mem_filesBelow.mp ha).1.proper,
      parse_text (FileSystem.mem_filesBelow.mp hb).1.proper]
    exact hlt
  refine List.pairwise_map.mpr (hparts.filterMap _ ?_)
  intro a a' hlt b hb b' hb'
  rw [(source?_eq_some.mp hb).2, (source?_eq_some.mp hb').2]
  exact hlt

/-! ## The whole workspace -/

/-- A file below the root is a source file in a language: neither list of patterns leaves it out, its
suffix is that of the language, which is wanted, it is still there when its size is asked for, and
it is not too large. -/
structure IsSource (fs : FileSystem) (config : Config) (root : Location) (file : SourceFile)
    (below : Location) (content : Bytes) : Prop where
  path_eq : file.path = Location.text (root ++ below)
  below_ne : below ≠ []
  stands : fs.standing? (root ++ below) = some (.file content)
  /-- A look finds it. -/
  seen : fs.misses (root ++ below) = false
  exclude : ignoredBy config.exclude (Path.joined below) = false
  gitignore : config.respectGitignore = true →
    ignoredBy (ignoreLines fs root) (Path.joined below) = false
  language : (Path.parse file.path).language? = some file.language
  wanted : file.language ∈ config.languages
  /-- So does the next look, which asks for its size. -/
  sized : (fs.looked (root ++ below)).misses (root ++ below) = false
  size : content.length ≤ config.maxFileBytes

theorem finds_iff (hp : fs.Plain root) (h : PatternsCompile fs config root) {file : SourceFile} :
    Finds fs config root file.path file.language ↔
      ∃ below content, IsSource fs config root file below content := by
  constructor
  · rintro ⟨here, content, hshows, hpath, ha⟩
    have he := ha.file hp hshows
    obtain ⟨below, rfl⟩ := List.isPrefixOf_iff_prefix.mp ha.below.1
    obtain ⟨hb, hx, hg, hl, hw, hs, hsize⟩ := h.admits_iff.mp ha
    obtain ⟨hseen, hsized⟩ := FileSystem.comesAndGoes_eq_false_iff.mp hs
    refine ⟨below, content, hpath, hb, he, hseen, hx, hg, ?_, hw, hsized, hsize⟩
    rw [hpath, parse_text hshows.proper]
    exact hl
  · rintro ⟨below, content, hpath, hb, he, hseen, hx, hg, hl, hw, hsized, hsize⟩
    have hshows := FileSystem.shows_of_file he
    rw [hpath, parse_text hshows.proper] at hl
    refine ⟨root ++ below, content, hshows, hpath, h.admits_iff.mpr ?_⟩
    exact ⟨hb, hx, hg, hl, hw, FileSystem.comesAndGoes_eq_false_iff.mpr ⟨hseen, hsized⟩, hsize⟩

end

/-- Empty files, of which one is ignored and one comes and goes; in the other names, the character
after `b` comes before `/`. -/
def siblings : FileSystem :=
  let fs := ["b.py", "b-c/a.py", "b/a.py", "gen/out.py", "gone.py"].foldl
    (fun fs name => fs.write (Path.parse name) (.file [])) FileSystem.bareWs
  { fs.write (Path.parse ".gitignore") (.file (Utf8.encode "gen/".toList)) with
    vanishing := ["/ws/gone.py"] }

end Discovery

end SourceIndex
