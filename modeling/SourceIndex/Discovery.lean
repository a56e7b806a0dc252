import SourceIndex.Config
import SourceIndex.FileSystem.Looks
import SourceIndex.Patterns
import SourceIndex.Text.Lines

/-!
# Discovery of source files

The source files of a workspace are the files below its root that no pattern leaves out, whose suffix
is that of a wanted language, and that are not too large.  They come in the order of their
locations.  A link to a file is a file under its own name, as it stands in the workspace.

Each file is judged by itself (`Screen.verdict`), so that what is found and what is reported are a
filtering and a flattening of one list of verdicts.
-/

namespace SourceIndex

/-- A file to be indexed. -/
structure SourceFile where
  path : String
  language : String
deriving DecidableEq, Repr

/-- Why discovery cannot finish. -/
inductive DiscoveryError where
  /-- The root or a pattern cannot be made sense of. -/
  | failure (cause : Failure)
  /-- The directory cannot be listed. -/
  | unlistable (reason : String)
deriving DecidableEq, Repr

namespace Discovery

open PatternEngine (Spec ignores compileUsable)

variable [PatternEngine]

/-! ## Judging one file -/

/-- What files are judged by. -/
structure Screen where
  root : Location
  exclude : Spec
  /-- The patterns of the ignore file, if there is one to be respected. -/
  gitignore : Option Spec
  languages : List String
  maxFileBytes : Int
  /-- Whether a file has gone by the time its size is asked for. -/
  isGone : Location → Bool

/-- What becomes of a file. -/
inductive Verdict where
  /-- A pattern leaves it out, or its language is not wanted. -/
  | ignored
  /-- Its size cannot be told. -/
  | vanished
  /-- It is too large. -/
  | oversized (size : Nat)
  /-- It is to be indexed. -/
  | taken (language : String)
deriving DecidableEq, Repr

/-- The path of a location below the root, as patterns see it. -/
def Screen.relative (s : Screen) (here : Location) : List Char :=
  Path.joined (here.drop s.root.length)

/-- What becomes of the file at a location. -/
def Screen.verdict (s : Screen) (here : Location) (content : Bytes) : Verdict :=
  if ignores s.exclude (s.relative here) || s.gitignore.any (ignores · (s.relative here)) then
    .ignored
  else
    match here.path.language? with
    | none => .ignored
    | some language =>
      if !s.languages.contains language then .ignored
      else if s.isGone here then .vanished
      else if s.maxFileBytes < content.length then .oversized content.length
      else .taken language

/-- The file to be indexed at a location, if there is one. -/
def Screen.source? (s : Screen) (file : Location × Bytes) : Option SourceFile :=
  match s.verdict file.1 file.2 with
  | .taken language => some ⟨file.1.text, language⟩
  | _ => none

/-- What happens when the size of the file at a location is asked for. -/
def Screen.report (s : Screen) (file : Location × Bytes) : List Event :=
  match s.verdict file.1 file.2 with
  | .vanished =>
    [.look file.1,
      .log ⟨.warning, .discovery,
        "Cannot stat " ++ file.1.text ++ ": [Errno 2] No such file or directory"⟩]
  | .oversized size =>
    [.log ⟨.info, .discovery,
      "Skipping " ++ String.ofList (s.relative file.1) ++ " (" ++ Text.number size ++ " bytes > "
        ++ Text.number s.maxFileBytes ++ ")"⟩]
  | _ => []

/-! ## The whole workspace -/

/-- The patterns of the ignore file in a directory; none if there is no such file, or if it cannot be
read. -/
def gitignoreSpec (fs : FileSystem) (root : Location) :
    Traced (Except PatternError (Option Spec)) := do
  let here : Location := root ++ [".gitignore"]
  fs.glance here
  if fs.misses here || (fs.reach? here.path).isNone then return .ok none
  else
    match fs.read here.path with
    | .error e => do
      Traced.report .warning .discovery
        ("Cannot read " ++ here.text ++ ": " ++ e.describe here.path)
      return .ok none
    | .ok content => do
      let spec ← compileUsable here.text ((Text.lines (Utf8.decode content)).map String.ofList)
      return spec.map some

/-- The files below a directory, each looked at once; none if the directory is missed. -/
def list (fs : FileSystem) (root : Location) : Traced (List (Location × Bytes)) := do
  fs.glance root
  if fs.misses root then return []
  else
    Traced.emitAll (fs.looksBelow root)
    return fs.filesBelow root

/-- The files below the root that the screen lets through. -/
def search (fs : FileSystem) (screen : Screen) : Traced (Except DiscoveryError (List SourceFile)) :=
  match fs.unlistable with
  | some reason => return .error (.unlistable reason)
  | none => do
    let files ← list fs screen.root
    let found := files.filterMap screen.source?
    Traced.emitAll (files.flatMap screen.report)
    Traced.report .info .discovery
      ("Discovered " ++ Text.number found.length ++ " files under " ++ screen.root.text)
    return .ok found

/-- The source files below a directory that has been found. -/
def below (fs : FileSystem) (config : Config) (root : Location) :
    Traced (Except DiscoveryError (List SourceFile)) := do
  match ← compileUsable "exclude patterns" config.exclude with
  | .error e => return .error (.failure (.badPattern e))
  | .ok exclude =>
    let gitignore ← if config.respectGitignore then gitignoreSpec fs root else pure (.ok none)
    match gitignore with
    | .error e => return .error (.failure (.badPattern e))
    | .ok gitignore =>
      search fs {
        root, exclude, gitignore,
        languages := config.languages,
        maxFileBytes := config.maxFileBytes,
        isGone := fs.comesAndGoes }

end Discovery

/-- The source files of a workspace.  The root is looked at when its path is resolved, when it is
checked to be a directory, and when it is listed. -/
def discover [PatternEngine] (fs : FileSystem) (config : Config) :
    Traced (Except DiscoveryError (List SourceFile)) := do
  match fs.resolve (Path.parse config.projectRoot) with
  | .error e => return .error (.failure e)
  | .ok root =>
    fs.glance root
    let fs := fs.looked root
    fs.glance root
    if fs.misses root || !fs.isDirectory root then
      Traced.report .warning .discovery ("Workspace root is not a directory: " ++ root.text)
      return .ok []
    else Discovery.below (fs.looked root) config root

end SourceIndex
