import SourceIndex.Proofs.Workspace.Cut

/-!
# Strict scans

A strict analyzer refuses a tree in which the parser had to recover from an error.  Whatever else
can happen to a file happens to it either way: a tree whose root cannot be read is refused when a
strict analyzer asks it for errors, and else when its outline is to be made.  So there is an outline
exactly if there is a whole tree that the analyzer does not mind (`Analyzer.outline_eq_ok`).

**A strict scan leaves the entries of a scan that is not strict, without those whose trees report an
error**, and skips the files of these (`scan_strict`).
-/

namespace SourceIndex

/-! ## One source -/

/-- What the parser of a language makes of a source, if the language is registered. -/
def Registry.outcome? (r : Registry) (pack : GrammarPack) (language : String) (source : Source) :
    Option ParseOutcome :=
  (r.parser? pack language).map (·.run (Utf8.encode source.text.toList))

namespace Analyzer

variable {a : Analyzer} {language : String}

/-- A root is found exactly if the parser gives a whole tree, without an error if the analyzer is
strict. -/
theorem value_parse_root_eq_ok (a : Analyzer) (source : Bytes) (language : String) (root : Tree) :
    (a.parse source language).value.bind ParsedTree.root = .ok root ↔
      ∃ hasError, (a.registry.parser? a.pack language).map (·.run source)
          = some (.tree (.whole root hasError)) ∧
        (a.strict = true → hasError = false) := by
  unfold parse
  cases a.registry.parser? a.pack language with
  | none => simp [Except.bind]
  | some parser =>
    simp only [Traced.value_bind, Traced.value_pure, Option.map_some, Option.some.injEq]
    cases parser.run source with
    | nothing => simp [ParseOutcome.check, Except.bind]
    | raised reason => simp [ParseOutcome.check, Except.bind]
    | tree parsed =>
      cases parsed with
      | broken reason =>
        cases a.strict <;> simp [ParseOutcome.check, ParsedTree.check, ParsedTree.root, Except.bind]
      | whole found hasError =>
        cases a.strict <;> cases hasError <;>
          simp [ParseOutcome.check, ParsedTree.check, ParsedTree.root, Except.bind]

/-- **There is an outline exactly if the parser gives a whole tree**, without an error if the
analyzer is strict; strictness has no other say in it. -/
theorem outline_eq_ok {content : Bytes} {path : String} {o : Outline} :
    a.outline content path language = .ok o ↔
      ∃ table root hasError, a.registry.table? language = some table ∧
        a.registry.outcome? a.pack language (Source.ofBytes content)
          = some (.tree (.whole root hasError)) ∧
        (a.strict = true → hasError = false) ∧
        Outline.ofTree table (Utf8.encode (Source.ofBytes content).text.toList) language
          (Path.parse path).name root = o := by
  unfold outline analyze Registry.outcome?
  cases a.registry.table? language with
  | none => simp
  | some table =>
    have hroot :=
      a.value_parse_root_eq_ok (Utf8.encode (Source.ofBytes content).text.toList) language
    simp only [Traced.value_bind, Option.some.injEq]
    generalize (a.parse _ language).value.bind ParsedTree.root = found at hroot ⊢
    constructor
    · intro h
      cases found with
      | error e => cases h
      | ok root =>
        obtain ⟨hasError, hparsed, hstrict⟩ := (hroot root).mp rfl
        exact ⟨table, root, hasError, rfl, hparsed, hstrict, Except.ok.inj h⟩
    · rintro ⟨table', root, hasError, rfl, hparsed, hstrict, rfl⟩
      rw [(hroot root).mpr ⟨hasError, hparsed, hstrict⟩]
      rfl

end Analyzer

namespace Workspace

variable {w : Workspace} {pack : GrammarPack} {fs : FileSystem} {path language : String}

/-! ## One file -/

/-- What the parser makes of the file at a path, in a language. -/
def outcome? (w : Workspace) (pack : GrammarPack) (fs : FileSystem) (path language : String) :
    Option ParseOutcome :=
  match fs.readSource path with
  | .ok source => w.registry.outcome? pack language source
  | .error _ => none

/-- Whether the root of the tree of a file reports an error. -/
def reportsError (w : Workspace) (pack : GrammarPack) (fs : FileSystem) (path language : String) :
    Bool :=
  match w.outcome? pack fs path language with
  | some (.tree (.whole _ hasError)) => hasError
  | _ => false

/-- An attempt at a file comes to something exactly if there is a whole tree of it, without an error
if the workspace is strict. -/
theorem value_attempt_iff_tree {analysed : Analysed} :
    (w.attempt pack fs path language).value = some analysed ↔
      ∃ content table root hasError, fs.Gives path content ∧
        w.registry.table? language = some table ∧
        w.outcome? pack fs path language = some (.tree (.whole root hasError)) ∧
        (w.config.strict = true → hasError = false) ∧
        Outline.ofTree table (Utf8.encode (Source.ofBytes content).text.toList) language
          (Path.parse path).name root = analysed.outline ∧
        analysed.digest = Sha256.hexDigest content := by
  rw [value_attempt_eq_some]
  constructor
  · rintro ⟨content, hg, ho, hd⟩
    obtain ⟨table, root, hasError, ht, hp, hs, hof⟩ := Analyzer.outline_eq_ok.mp ho
    refine ⟨content, table, root, hasError, hg, ht, ?_, hs, hof, hd⟩
    rw [outcome?, hg.readSource]
    exact hp
  · rintro ⟨content, table, root, hasError, hg, ht, hp, hs, hof, hd⟩
    rw [outcome?, hg.readSource] at hp
    exact ⟨content, hg, Analyzer.outline_eq_ok.mpr ⟨table, root, hasError, ht, hp, hs, hof⟩, hd⟩

/-- The workspace with another strictness. -/
def withStrict (w : Workspace) (strict : Bool) : Workspace :=
  { w with config := { w.config with strict } }

/-- **A strict attempt comes to what one that is not strict comes to**, unless the tree reports an
error. -/
theorem value_job_strict (w : Workspace) (pack : GrammarPack) (fs : FileSystem)
    (file : SourceFile) :
    ((w.withStrict true).job pack fs file).value
      = ((w.withStrict false).job pack fs file).value.filter
          (fun _ => !w.reportsError pack fs file.path file.language) := by
  refine Option.ext ?_
  intro analysed
  rw [Option.filter_eq_some_iff, job, job, value_attempt_iff_tree, value_attempt_iff_tree]
  constructor
  · rintro ⟨content, table, root, hasError, hg, ht, hp, hs, hrest⟩
    refine ⟨⟨content, table, root, hasError, hg, ht, hp, nofun, hrest⟩, ?_⟩
    have hreports : w.reportsError pack fs file.path file.language = hasError := by
      rw [reportsError, show w.outcome? pack fs file.path file.language = _ from hp]
    rw [hreports, hs rfl]
    rfl
  · rintro ⟨⟨content, table, root, hasError, hg, ht, hp, -, hrest⟩, he⟩
    refine ⟨content, table, root, hasError, hg, ht, hp, ?_, hrest⟩
    intro _
    rw [reportsError, show w.outcome? pack fs file.path file.language = _ from hp] at he
    simpa using he

/-- An outline that a file comes to is in the language of the file and was read off a whole tree. -/
theorem of_value_job {file : SourceFile} {analysed : Analysed}
    (h : (w.job pack fs file).value = some analysed) :
    analysed.outline.language = file.language ∧
      ∃ root, w.outcome? pack fs file.path file.language
        = some (.tree (.whole root (w.reportsError pack fs file.path file.language))) := by
  obtain ⟨content, table, root, hasError, -, -, hp, -, hof, -⟩ := value_attempt_iff_tree.mp h
  refine ⟨by rw [← hof]; rfl, root, ?_⟩
  rw [reportsError, hp]

/-! ## All files -/

variable {files : List SourceFile} {strict lenient : Workspace}

/-- Whether the tree of the file of an entry reports an error. -/
def entryReportsError (w : Workspace) (pack : GrammarPack) (fs : FileSystem)
    (e : String × Outline) : Bool :=
  w.reportsError pack fs e.1 e.2.language

/-- What a strict scan leaves beside what one leaves that is not strict: the same entries in the
same order, but for those whose trees report an error, which are skipped. -/
structure Sifts (w : Workspace) (pack : GrammarPack) (fs : FileSystem)
    (lenient strict : Workspace) : Prop where
  entries : strict.index.files.entries
    = lenient.index.files.entries.filter (fun e => !w.entryReportsError pack fs e)
  seen : strict.stats.seen = lenient.stats.seen
  skipped : strict.stats.skipped
    = lenient.stats.skipped
      + (lenient.index.files.entries.filter (w.entryReportsError pack fs)).length
  /-- Every entry has a tree whose root tells whether there is an error. -/
  trees : ∀ e ∈ lenient.index.files.entries, ∃ root,
    w.outcome? pack fs e.1 e.2.language
      = some (.tree (.whole root (w.entryReportsError pack fs e)))

theorem entries_of_covers
    (hs : Covers (fun f => ((w.withStrict true).job pack fs f).value) files strict)
    (hl : Covers (fun f => ((w.withStrict false).job pack fs f).value) files lenient) :
    strict.index.files.entries
      = lenient.index.files.entries.filter (fun e => !w.entryReportsError pack fs e) := by
  rw [hs.index, hl.index, List.filter_filterMap]
  refine List.filterMap_congr ?_
  intro file _
  rw [value_job_strict]
  cases hv : ((w.withStrict false).job pack fs file).value with
  | none => rfl
  | some analysed =>
    have hlanguage := (of_value_job hv).1
    simp only [Option.filter_some, Option.map_some, entryReportsError, hlanguage]
    cases w.reportsError pack fs file.path file.language <;> rfl

theorem trees_of_covers
    (hl : Covers (fun f => ((w.withStrict false).job pack fs f).value) files lenient) :
    ∀ e ∈ lenient.index.files.entries, ∃ root, w.outcome? pack fs e.1 e.2.language
      = some (.tree (.whole root (w.entryReportsError pack fs e))) := by
  intro e he
  rw [hl.index] at he
  obtain ⟨file, -, hf⟩ := List.mem_filterMap.mp he
  obtain ⟨analysed, hv, rfl⟩ := Option.map_eq_some_iff.mp hf
  obtain ⟨hlanguage, root, hroot⟩ := of_value_job hv
  refine ⟨root, ?_⟩
  rw [entryReportsError, hlanguage]
  exact hroot

/-- Two scans that went through all of the same files. -/
theorem sifts_of_cutAt
    (hs : CutAt (w.withStrict true) pack fs files files.length strict)
    (hl : CutAt (w.withStrict false) pack fs files files.length lenient) :
    Sifts w pack fs lenient strict := by
  have hscovers := hs.toCovers
  have hlcovers := hl.toCovers
  rw [List.take_length] at hscovers hlcovers
  have hentries := entries_of_covers hscovers hlcovers
  refine ⟨hentries, hs.seen.trans hl.seen.symm, ?_, trees_of_covers hlcovers⟩
  -- Both have indexed or skipped all files, so what one has more of the other has less of.
  have hlength := lenient.index.files.entries.length_eq_length_filter_add
    (w.entryReportsError pack fs)
  rw [← hentries] at hlength
  have hsizes : strict.index.files.entries.length = strict.stats.indexed := hs.size
  have hsizel : lenient.index.files.entries.length = lenient.stats.indexed := hl.size
  have hstaken := hs.taken
  have hltaken := hl.taken
  omega

/-- **Strictness only leaves out files whose trees report an error.**  Two scans of a workspace, a
strict one and one that is not strict, neither of them cancelled, have the same answer; the strict
one leaves the entries of the other whose trees report no error, in the same order, and has skipped
as many more files as it has fewer entries. -/
theorem scan_strict [PatternEngine] (w : Workspace) (pack : GrammarPack) (fs : FileSystem)
    {c d : Interleaving} (hc : ∀ i, c.cancelled i = false) (hd : ∀ i, d.cancelled i = false) :
    ((w.withStrict true).scan pack fs c).value.1 = ((w.withStrict false).scan pack fs d).value.1 ∧
      Sifts w pack fs ((w.withStrict false).scan pack fs d).value.2
        ((w.withStrict true).scan pack fs c).value.2 := by
  have hstrict : discover fs (w.withStrict true).config = discover fs w.config := rfl
  have hlenient : discover fs (w.withStrict false).config = discover fs w.config := rfl
  constructor
  · rw [answer_scan, answer_scan, hstrict, hlenient]
  · cases hdiscover : (discover fs w.config).value with
    | error e =>
      rw [value_scan, value_scan, hstrict, hlenient, hdiscover]
      exact ⟨rfl, rfl, rfl, fun e he => by cases he⟩
    | ok files =>
      have hs := cutAt_scan (w := w.withStrict true) pack c hdiscover
      have hl := cutAt_scan (w := w.withStrict false) pack d hdiscover
      rw [Scan.taken_of_uncancelled hc] at hs
      rw [Scan.taken_of_uncancelled hd] at hl
      exact sifts_of_cutAt hs hl

/-- Parsers that find nothing in any source; that for Java reports an error. -/
def javaErrors : GrammarPack where
  loads _ := true
  parse grammar _ := .tree (.whole default (grammar == "java"))

/-- A workspace of the two files. -/
def javaOrPython : Workspace := fresh { projectRoot := "/ws" } twoLanguages

theorem entries_scan_javaOrPython :
    ((javaOrPython.withStrict false).scan javaErrors javaAndPython {}).value.2.index.files.entries
      = [("/ws/A.java", { fileName := "A.java", language := "java" }),
          ("/ws/b.py", { fileName := "b.py", language := "python" })] := by
  rw [value_scan]
  simp only [show (discover javaAndPython (javaOrPython.withStrict false).config).value = _ from
    discover_javaAndPython]
  decide +kernel

/-- A strict scan leaves out the Java file, and skips it. -/
theorem scan_strict_javaAndPython :
    ((javaOrPython.withStrict true).scan javaErrors javaAndPython {}).value.2.index.files.keys
        = ["/ws/b.py"] ∧
      ((javaOrPython.withStrict true).scan javaErrors javaAndPython {}).value.2.stats.skipped
        = ((javaOrPython.withStrict false).scan javaErrors javaAndPython {}).value.2.stats.skipped
          + 1 := by
  have huncancelled : ∀ i, ({} : Interleaving).cancelled i = false := fun _ => rfl
  obtain ⟨-, hsifts⟩ := scan_strict javaOrPython javaErrors javaAndPython huncancelled huncancelled
  have hentries := hsifts.entries
  have hskipped := hsifts.skipped
  rw [entries_scan_javaOrPython] at hentries hskipped
  refine ⟨?_, hskipped⟩
  rw [OrderedMap.keys, hentries]
  decide +kernel

end Workspace

end SourceIndex
