import SourceIndex.Proofs.Patterns
import SourceIndex.Proofs.Workspace.IndexFile

/-!
# When a scan returns

Most of what can go wrong is met by a scan without ado: files that cannot be read or have gone,
files without an outline, whatever the parser does, a root that is missing or cannot be listed, and
cancellation.  Two things are not.  **A scan returns exactly if its root can be resolved and no
pattern that it reads is malformed** (`scan_returns_iff`).

The patterns are read only when the root has been found to be a directory, and before it is listed.
Those of the configuration come first, so they decide what a failure names.
-/

namespace SourceIndex

namespace Discovery

section

open PatternEngine (flaw? compileUsable value_compileUsable_eq_error)

variable [PatternEngine] {fs : FileSystem} {config : Config} {root : Location}

/-- The lines of the ignore file in a directory; none if there is no such file, or if it cannot be
read. -/
def ignoreLines (fs : FileSystem) (root : Location) : List String :=
  if fs.misses (root ++ [".gitignore"]) then []
  else
    match fs.read (Location.path (root ++ [".gitignore"])) with
    | .error _ => []
    | .ok content => linesOf content

/-- The lines that are read as patterns for the files below a root, in the order of reading. -/
def patternLines (fs : FileSystem) (config : Config) (root : Location) : List String :=
  config.exclude ++ if config.respectGitignore then ignoreLines fs root else []

/-- The root of a configuration is found to be a directory, by the second look at it. -/
structure Enters (fs : FileSystem) (config : Config) (root : Location) : Prop where
  resolves : fs.resolve (Path.parse config.projectRoot) = .ok root
  isDirectory : fs.isDirectory root = true
  seen : (fs.looked root).misses root = false

/-- The root can be resolved, and no pattern that is read is malformed. -/
structure Sensible (fs : FileSystem) (config : Config) : Prop where
  root : ∃ here, fs.resolve (Path.parse config.projectRoot) = .ok here
  patterns : ∀ root, Enters fs config root → ∀ line ∈ patternLines fs config root, flaw? line = none

/-! ## The patterns -/

theorem gitignoreSpec_eq_error {e : PatternError} :
    (gitignoreSpec fs root).value = .error e ↔ (ignoreLines fs root).findSome? flaw? = some e := by
  rw [value_gitignoreSpec, ignoreLines]
  split
  · simp
  · cases fs.read (Location.path (root ++ [".gitignore"])) with
    | error fault => simp
    | ok content =>
      have hlines := @value_compileUsable_eq_error _ (Location.text (root ++ [".gitignore"]))
        (linesOf content) e
      dsimp only
      rw [← hlines]
      cases (compileUsable _ (linesOf content)).value <;> simp [Except.map]

/-- What the files below a root are to be judged by fails for the first malformed pattern. -/
theorem screen_eq_error {e : PatternError} :
    screen fs config root = .error e ↔
      (patternLines fs config root).findSome? flaw? = some e := by
  have hfile {e : PatternError} : ignoreFile fs config root = .error e ↔
      (if config.respectGitignore then ignoreLines fs root else []).findSome? flaw? = some e := by
    unfold ignoreFile
    split
    · exact gitignoreSpec_eq_error
    · simp
  rw [patternLines, List.findSome?_append]
  unfold screen
  cases hx : (compileUsable "exclude patterns" config.exclude).value with
  | error found =>
    rw [value_compileUsable_eq_error.mp hx, Option.some_or]
    simp
  | ok exclude =>
    have hnone : config.exclude.findSome? flaw? = none := by
      refine Option.eq_none_iff_forall_ne_some.mpr ?_
      intro found hf
      have hbad : (compileUsable "exclude patterns" config.exclude).value = .error found :=
        value_compileUsable_eq_error.mpr hf
      rw [hbad] at hx
      cases hx
    rw [hnone, Option.none_or, ← hfile]
    cases ignoreFile fs config root with
    | error found => simp
    | ok gitignore => simp

omit [PatternEngine] in
/-- Looks at the root say nothing about the patterns. -/
theorem patternLines_looked :
    patternLines (fs.looked root) config root = patternLines fs config root := by
  have hne : Location.text (root ++ [".gitignore"]) ≠ root.text := text_concat_ne root (by decide)
  unfold patternLines ignoreLines
  rw [FileSystem.misses_looked_of_ne hne, FileSystem.read_looked]

/-! ## Discovery -/

theorem below_eq_failure {cause : Failure} :
    (below fs config root).value = .error (.failure cause) ↔
      ∃ e, (patternLines fs config root).findSome? flaw? = some e ∧ cause = .badPattern e := by
  rw [value_below]
  cases hs : screen fs config root with
  | error e =>
    simp only [screen_eq_error.mp hs, Except.error.injEq, DiscoveryError.failure.injEq,
      Option.some.injEq, exists_eq_left']
    exact eq_comm
  | ok s =>
    have hnone : ∀ e, (patternLines fs config root).findSome? flaw? ≠ some e := by
      intro e he
      have hbad : screen fs config root = .error e := screen_eq_error.mpr he
      rw [hbad] at hs
      cases hs
    simp only [value_search]
    cases fs.unlistable <;> simp [hnone]

/-- **Discovery fails for a root that cannot be resolved, or for the first malformed pattern**; that
the root cannot be listed is not such a failure. -/
theorem discover_eq_failure {cause : Failure} :
    (discover fs config).value = .error (.failure cause) ↔
      fs.resolve (Path.parse config.projectRoot) = .error cause ∨
        ∃ root e, Enters fs config root ∧ (patternLines fs config root).findSome? flaw? = some e ∧
          cause = .badPattern e := by
  unfold discover
  cases hres : fs.resolve (Path.parse config.projectRoot) with
  | error e =>
    have hnot : ∀ root, ¬Enters fs config root := by
      intro root he
      rw [he.resolves] at hres
      cases hres
    simp [hnot]
  | ok root =>
    have hroot : ∀ there, Enters fs config there → there = root := by
      intro there he
      exact Except.ok.inj (he.resolves.symm.trans hres)
    simp only [Traced.value_bind, reduceCtorEq, false_or]
    by_cases hin : (fs.looked root).misses root = false ∧ fs.isDirectory root = true
    · have henters : Enters fs config root := ⟨hres, hin.2, hin.1⟩
      have hdir : (fs.looked root).isDirectory root = true := by
        rw [FileSystem.isDirectory, FileSystem.standing?_looked]
        exact hin.2
      simp only [hin.1, hdir, Bool.not_true, Bool.or_self, Bool.false_eq_true, if_false]
      rw [below_eq_failure, patternLines_looked, patternLines_looked]
      constructor
      · rintro ⟨e, he, hc⟩
        exact ⟨root, e, henters, he, hc⟩
      · rintro ⟨there, e, hthere, he, hc⟩
        rw [hroot there hthere] at he
        exact ⟨e, he, hc⟩
    · -- The root is not entered, so that no pattern is read.
      have hout : ((fs.looked root).misses root || !(fs.looked root).isDirectory root) = true := by
        have hdir : (fs.looked root).isDirectory root = fs.isDirectory root := by
          rw [FileSystem.isDirectory, FileSystem.isDirectory, FileSystem.standing?_looked]
        rw [hdir]
        cases hm : (fs.looked root).misses root <;> cases hd : fs.isDirectory root <;> simp_all
      simp only [hout, if_true, Traced.value_bind, Traced.value_pure, reduceCtorEq, false_iff]
      rintro ⟨there, e, hthere, -⟩
      rw [hroot there hthere] at hthere
      exact hin ⟨hthere.seen, hthere.isDirectory⟩

end

end Discovery

namespace Workspace

open Discovery

section

variable [PatternEngine]

/-- A scan fails for what discovery fails for, and for nothing else. -/
theorem answer_scan (w : Workspace) (pack : GrammarPack) (fs : FileSystem)
    (conditions : Interleaving) :
    (w.scan pack fs conditions).value.1 = match (discover fs w.config).value with
      | .error (.failure e) => .error e
      | _ => .ok () := by
  unfold scan
  simp only [Traced.value_bind]
  cases hd : (discover fs w.config).value with
  | error e =>
    rw [show (discover fs w.reset.config).value = .error e from hd]
    cases e <;> rfl
  | ok files =>
    rw [show (discover fs w.reset.config).value = .ok files from hd]
    rfl

/-- **A scan returns exactly if its root can be resolved and no pattern that it reads is malformed**,
whatever is wrong with the files, whatever parsers do, and whenever it is cancelled. -/
theorem scan_returns_iff (w : Workspace) (pack : GrammarPack) (fs : FileSystem)
    (conditions : Interleaving) :
    (w.scan pack fs conditions).value.1 = .ok () ↔ Sensible fs w.config := by
  have hanswer : (w.scan pack fs conditions).value.1 = .ok () ↔
      ∀ cause, (discover fs w.config).value ≠ .error (.failure cause) := by
    rw [answer_scan]
    split
    · next e hd => simp [hd]
    · next hd => simpa using hd
  rw [hanswer]
  constructor
  · intro h
    constructor
    · cases hres : fs.resolve (Path.parse w.config.projectRoot) with
      | ok here => exact ⟨here, rfl⟩
      | error cause => exact absurd (discover_eq_failure.mpr (Or.inl hres)) (h cause)
    · intro root he
      refine List.findSome?_eq_none_iff.mp (Option.eq_none_iff_forall_ne_some.mpr ?_)
      intro e hf
      exact h _ (discover_eq_failure.mpr (Or.inr ⟨root, e, he, hf, rfl⟩))
  · rintro ⟨⟨here, hres⟩, hpatterns⟩ cause hd
    rcases discover_eq_failure.mp hd with hbad | ⟨root, e, he, hf, -⟩
    · rw [hres] at hbad
      cases hbad
    · rw [List.findSome?_eq_none_iff.mpr (hpatterns root he)] at hf
      cases hf

end

/-- A directory whose ignore file holds the one line `[z-a]`. -/
def reversedIgnore : FileSystem :=
  FileSystem.bareWs.write (Path.parse "/ws/.gitignore")
    (.file (Utf8.encode "[z-a]".toList))

/-- A scan does not return if the ignore file has a reversed range. -/
theorem scan_fails_for_reversed_range :
    ((fresh { projectRoot := "/ws" } twoLanguages).scan blankPack reversedIgnore {}).value.1
      = .error (.badPattern (.malformed "bad character range in '[z-a]'")) := by
  have henters : Enters reversedIgnore { projectRoot := "/ws" } ["ws"] :=
    ⟨eq_ok_of_toOption (by decide +kernel), by decide +kernel, by decide +kernel⟩
  have hline : (patternLines reversedIgnore { projectRoot := "/ws" } ["ws"]).findSome?
      PatternEngine.flaw? = some (.malformed "bad character range in '[z-a]'") := by decide +kernel
  have hdiscover : (discover reversedIgnore { projectRoot := "/ws" }).value
      = .error (.failure (.badPattern (.malformed "bad character range in '[z-a]'"))) :=
    discover_eq_failure.mpr (Or.inr ⟨["ws"], _, henters, hline, rfl⟩)
  rw [answer_scan, show (fresh { projectRoot := "/ws" } twoLanguages).config
    = { projectRoot := "/ws" } from rfl, hdiscover]

end Workspace

end SourceIndex
