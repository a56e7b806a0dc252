import SourceIndex.Discovery
import SourceIndex.Workspace.Basic

/-!
# Scanning a workspace

A scan forgets the entries of a workspace and makes them anew from the files it discovers.  It looks
at the files one by one, in the order of discovery, and may be cancelled between two files; the
entries made until then stay.

With several workers the files are analysed in whatever order the workers get to them.  Their
results are still taken in the order of discovery, so **the order of the work does not show in the
index**.
-/

namespace SourceIndex

/-- What a scan does not decide by itself. -/
structure Interleaving where
  /-- Whether the scan has been cancelled by the time the given number of files has been taken. -/
  cancelled : Nat → Bool := fun _ => false
  /-- The order in which the workers finish the given number of files. -/
  order : Nat → List Nat := List.range

namespace Scan

variable {ρ : Type}

/-! ## Taking results in order -/

/-- The results of the files from number `i` on, up to the first before which the scan is
cancelled. -/
def sequential (job : SourceFile → Traced ρ) (cancelled : Nat → Bool) :
    Nat → List SourceFile → Traced (List ρ)
  | _, [] => return []
  | i, file :: rest =>
    if cancelled i then return []
    else do
      let result ← job file
      let results ← sequential job cancelled (i + 1) rest
      return result :: results

/-- The results of the workers, by the number of the file, in the order in which they finish. -/
def work (job : SourceFile → Traced ρ) (files : List SourceFile) :
    List Nat → OrderedMap Nat ρ → Traced (OrderedMap Nat ρ)
  | [], done => return done
  | i :: rest, done =>
    match done.get? i, files[i]? with
    | none, some file => do
      let result ← job file
      work job files rest (done.insert i result)
    | _, _ => work job files rest done

/-- The results of the files from number `i` on, taken from what the workers have done; a file that
no worker got to is waited for. -/
def await (job : SourceFile → Traced ρ) (done : OrderedMap Nat ρ) (cancelled : Nat → Bool) :
    Nat → List SourceFile → Traced (List ρ)
  | _, [] => return []
  | i, file :: rest =>
    if cancelled i then return []
    else do
      let result ← match done.get? i with
        | some result => pure result
        | none => job file
      let results ← await job done cancelled (i + 1) rest
      return result :: results

/-- The results of several workers, in the order of the files. -/
def parallel (job : SourceFile → Traced ρ) (conditions : Interleaving) (files : List SourceFile) :
    Traced (List ρ) := do
  let done ← work job files (conditions.order files.length) OrderedMap.empty
  await job done conditions.cancelled 0 files

end Scan

/-! ## Taking results into the index -/

/-- Counts a file of a language that was taken into the index. -/
def ScanStats.countIndexed (s : ScanStats) (language : String) : ScanStats :=
  { s with
    indexed := s.indexed + 1
    byLanguage := s.byLanguage.insert language ((s.byLanguage.get? language).getD 0 + 1) }

namespace Workspace

/-- Takes the result of one file into the workspace. -/
def record (w : Workspace) (file : SourceFile) : Option Analysed → Workspace
  | none => { w with stats := { w.stats with skipped := w.stats.skipped + 1 } }
  | some analysed =>
    let w := w.store file.path analysed
    { w with stats := w.stats.countIndexed file.language }

/-- Takes the results of files into the workspace, as far as there are results. -/
def recordAll (w : Workspace) (files : List SourceFile) (results : List (Option Analysed)) :
    Workspace :=
  (files.zip results).foldl (fun w e => w.record e.1 e.2) w

/-- The workspace before the first file of a scan. -/
def reset (w : Workspace) : Workspace :=
  { w with index := CodeIndex.empty, digests := OrderedMap.empty, stats := {} }

/-- The results of the files of a scan. -/
def results (w : Workspace) (pack : GrammarPack) (fs : FileSystem) (conditions : Interleaving)
    (files : List SourceFile) : Traced (List (Option Analysed)) :=
  let job (file : SourceFile) := w.attempt pack fs file.path file.language
  if 1 < w.config.workers then Scan.parallel job conditions files
  else Scan.sequential job conditions.cancelled 0 files

/-- Notes whether the scan stopped before the last file. -/
def noteCancelled (w : Workspace) : Workspace :=
  { w with
    stats := { w.stats with
      cancelled := decide (w.stats.indexed + w.stats.skipped < w.stats.seen) } }

/-- The report of a scan. -/
def reportScan (w : Workspace) : Traced Unit := do
  let s := w.stats
  let root := w.config.projectRoot
  if s.cancelled then
    Traced.report .info .workspace
      ("Scan cancelled after " ++ Text.number (s.indexed + s.skipped : Nat) ++ " of "
        ++ Text.number s.seen ++ " files")
  Traced.report .info .workspace
    ("Indexed " ++ Text.number s.indexed ++ "/" ++ Text.number s.seen ++ " files under " ++ root
      ++ " (" ++ Text.number w.index.totalFunctions ++ " functions, "
      ++ Text.number w.index.totalClasses ++ " classes, " ++ Text.number s.skipped ++ " skipped)")
  if s.seen ≠ 0 ∧ s.indexed = 0 ∧ !s.cancelled then
    Traced.report .warning .workspace ("No files indexed under " ++ root)

/-- Indexes the given files into a workspace without entries. -/
def scanFiles (w : Workspace) (pack : GrammarPack) (fs : FileSystem) (conditions : Interleaving)
    (files : List SourceFile) : Traced Workspace := do
  let results ← w.results pack fs conditions files
  let w := { w with stats := { w.stats with seen := files.length } }
  let w := (w.recordAll files results).noteCancelled
  w.reportScan
  return w

/-- Makes the index of a workspace anew.  A root or a pattern that cannot be made sense of is an error;
the workspace is then left without entries. -/
def scan [PatternEngine] (w : Workspace) (pack : GrammarPack) (fs : FileSystem)
    (conditions : Interleaving) : Traced (Except Failure Unit × Workspace) := do
  let w := w.reset
  match ← discover fs w.config with
  | .error (.failure e) => return (.error e, w)
  | .error (.unlistable reason) =>
    Traced.report .warning .workspace
      ("Cannot enumerate " ++ w.config.projectRoot ++ ": " ++ reason)
    return (.ok (), w)
  | .ok files =>
    let w ← w.scanFiles pack fs conditions files
    return (.ok (), w)

end Workspace

end SourceIndex
