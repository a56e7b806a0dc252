import SourceIndex.CodeIndex
import SourceIndex.Config
import SourceIndex.FileSystem.Looks
import SourceIndex.FileSystem.Source

/-!
# Workspaces

A workspace keeps the index of one directory.  With each indexed file it keeps the digest of the
bytes that the entry was made from, so that a file whose bytes have not changed is not analysed
again.

A request for one file resolves its path first, so that it does not matter how the file is named.  A
scan takes paths as discovery names them.
-/

namespace SourceIndex

/-- What the last scan met. -/
structure ScanStats where
  /-- Files found. -/
  seen : Nat := 0
  /-- Files taken into the index. -/
  indexed : Nat := 0
  /-- Files that could not be analysed. -/
  skipped : Nat := 0
  /-- Whether the scan stopped before the last file. -/
  cancelled : Bool := false
  /-- Files taken into the index, by language. -/
  byLanguage : OrderedMap String Nat := OrderedMap.empty

/-- Counts by language, sorted by language. -/
def ScanStats.sortedCounts (s : ScanStats) : List (String × Nat) :=
  s.byLanguage.entries.mergeSort (fun a b => decide (a.1 ≤ b.1))

/-- The index of a directory, and what is needed to keep it up to date. -/
structure Workspace where
  config : Config
  registry : Registry
  index : CodeIndex := CodeIndex.empty
  /-- The digest of the bytes that each entry of the index was made from. -/
  digests : OrderedMap String String := OrderedMap.empty
  stats : ScanStats := {}

/-- An outline, and the digest of the bytes it was made from. -/
structure Analysed where
  outline : Outline
  digest : String
deriving DecidableEq, Repr

namespace Workspace

/-- The workspace without entries. -/
def fresh (config : Config) (registry : Registry) : Workspace := { config, registry }

/-- The analyzer of a workspace. -/
def analyzer (w : Workspace) (pack : GrammarPack) : Analyzer :=
  ⟨pack, w.registry, w.config.strict⟩

/-! ## One file -/

/-- Analyses what was read from the file of a path. -/
def analyzeSource (w : Workspace) (pack : GrammarPack) (path language : String) (source : Source) :
    Traced (Except Failure Analysed) := do
  let outline ← (w.analyzer pack).analyze source.text language (Path.parse path).name
  return outline.map (⟨·, source.digest⟩)

/-- The report of a file that has no outline. -/
def reportFailure (path language : String) (e : Failure) : Traced Unit :=
  Traced.report .warning .workspace
    (if e.isExpected then "Skipping " ++ path ++ ": " ++ e.message
    else "Extraction error in " ++ path ++ " (" ++ language ++ "): " ++ e.message)

/-- Reads and analyses a file; a failure is reported. -/
def attempt (w : Workspace) (pack : GrammarPack) (fs : FileSystem) (path language : String) :
    Traced (Option Analysed) := do
  let result ← match fs.readSource path with
    | .error e => pure (.error e)
    | .ok source => w.analyzeSource pack path language source
  match result with
  | .ok analysed => return some analysed
  | .error e =>
    reportFailure path language e
    return none

/-- Takes the entry of a path into the index, at the end. -/
def store (w : Workspace) (path : String) (analysed : Analysed) : Workspace :=
  { w with
    index := w.index.add path analysed.outline
    digests := w.digests.insert path analysed.digest }

/-- Drops the entry of a path from the index. -/
def drop (w : Workspace) (path : String) : Workspace :=
  { w with
    index := w.index.remove path
    digests := w.digests.erase path }

/-- The entry of a path, if it was made from bytes with the given digest. -/
def current? (w : Workspace) (path digest : String) : Option Outline :=
  if w.digests.get? path = some digest then w.index.get? path else none

/-- Drops a file from the index, and tells whether it was there. -/
def removeFile (w : Workspace) (fs : FileSystem) (path : String) :
    Traced (Except Failure Bool × Workspace) := do
  match fs.resolve (Path.parse path) with
  | .error e => return (.error e, w)
  | .ok here =>
    fs.glance here
    return (.ok (w.index.get? here.text).isSome, w.drop here.text)

/-- Reports that a file has no outline, and drops it from the index. -/
def giveUp (w : Workspace) (fs : FileSystem) (path language : String) (e : Failure) :
    Traced (Except Failure (Option Outline) × Workspace) := do
  reportFailure path language e
  let (removed, w) ← w.removeFile fs path
  return (removed.map (fun _ => none), w)

/-- Brings the entry of a file up to date, after its bytes have been read. -/
def refresh (w : Workspace) (pack : GrammarPack) (fs : FileSystem) (path language : String)
    (source : Source) : Traced (Except Failure (Option Outline) × Workspace) :=
  match w.current? path source.digest with
  | some outline => return (.ok (some outline), w)
  | none => do
    match ← w.analyzeSource pack path language source with
    | .ok analysed => return (.ok (some analysed.outline), w.store path analysed)
    | .error e => w.giveUp fs path language e

/-- The language that was asked for, or else that of a file's suffix. -/
def languageFor (language : Option String) (path : String) : Option String :=
  match language with
  | some l => if l.isEmpty then (Path.parse path).language? else some l
  | none => (Path.parse path).language?

/-- Indexes the file at a resolved path, or indexes it again.  A file that cannot be analysed loses
its entry; one whose language is not known is left as it is. -/
def indexAt (w : Workspace) (pack : GrammarPack) (fs : FileSystem) (here : String)
    (language : Option String) : Traced (Except Failure (Option Outline) × Workspace) :=
  match languageFor language here with
  | none => do
    Traced.report .debug .workspace ("No language for " ++ here)
    return (.ok none, w)
  | some language =>
    match fs.readSource here with
    | .error e => w.giveUp fs here language e
    | .ok source => w.refresh pack fs here language source

/-- Indexes the file that a path names, or indexes it again.  The path is resolved first, and the file
is looked at for that. -/
def indexFile (w : Workspace) (pack : GrammarPack) (fs : FileSystem) (path : String)
    (language : Option String) : Traced (Except Failure (Option Outline) × Workspace) := do
  match fs.resolve (Path.parse path) with
  | .error e => return (.error e, w)
  | .ok here =>
    fs.glance here
    w.indexAt pack fs here.text language

/-! ## Looking functions up -/

/-- The function, of the file at a resolved path, that a line belongs to.  A file without an entry is
analysed, and the result not kept. -/
def enclosingAt? (w : Workspace) (pack : GrammarPack) (fs : FileSystem) (here : String)
    (line : Int) : Traced (Option FunctionInfo) :=
  match w.index.get? here with
  | some outline => return outline.enclosing? line
  | none =>
    match (Path.parse here).language? with
    | none => return none
    | some language => do
      let found ← w.attempt pack fs here language
      return found.bind (·.outline.enclosing? line)

/-- The function, of the file that a path names, that a line belongs to. -/
def enclosing? (w : Workspace) (pack : GrammarPack) (fs : FileSystem) (path : String) (line : Int) :
    Traced (Except Failure (Option FunctionInfo)) := do
  match fs.resolve (Path.parse path) with
  | .error e => return .error e
  | .ok here =>
    fs.glance here
    return .ok (← w.enclosingAt? pack fs here.text line)

end Workspace

end SourceIndex
