import SourceIndex.Text.Integer
import SourceIndex.Workspace.Scan
import SourceIndex.World

/-!
# Sessions

A session answers requests about workspaces with text.  It keeps one workspace for each root that it
was asked about, from the first request that needs one to its end, and the registry, once a request
has needed it.

A lookup of the function around a line needs a workspace, and so opens one for its project; from
then on the project counts as known, though it has no entries.
-/

namespace SourceIndex

/-- A request to a session. -/
inductive Request where
  /-- Makes the index of a workspace anew. -/
  | indexWorkspace (path : String)
  /-- Shows the outline of a file; an empty language is that of the file's suffix. -/
  | analyzeFile (path language : String)
  /-- Tells where functions of a name are. -/
  | findFunction (name project : String)
  /-- Shows the function around a line of a file. -/
  | enclosingFunction (path : String) (line : Int) (project : String)
  /-- Sums up a workspace. -/
  | workspaceOverview (project : String)
deriving DecidableEq, Repr

namespace Request

/-- The name of a request. -/
def name : Request → String
  | indexWorkspace _ => "index_workspace"
  | analyzeFile _ _ => "analyze_file"
  | findFunction _ _ => "find_function"
  | enclosingFunction _ _ _ => "enclosing_function"
  | workspaceOverview _ => "workspace_overview"

/-- The arguments of a request, strings in quotes. -/
def arguments : Request → List (String × String)
  | indexWorkspace path => [("path", Text.quote path)]
  | analyzeFile path language => [("path", Text.quote path), ("language", Text.quote language)]
  | findFunction name project => [("name", Text.quote name), ("project", Text.quote project)]
  | enclosingFunction path line project =>
    [("path", Text.quote path), ("line", Text.number line), ("project", Text.quote project)]
  | workspaceOverview project => [("project", Text.quote project)]

/-- The beginning of an answer that the log keeps: its first line, cut at 120 characters. -/
def summary (answer : String) : String :=
  String.ofList ((answer.toList.takeWhile (· != '\n')).take 120)

/-- What the log keeps of a request and its answer. -/
def logLine (r : Request) (answer : String) : String :=
  r.name ++ " " ++ Text.joinWith " " (r.arguments.map (fun a => a.1 ++ "=" ++ a.2)) ++ " | "
    ++ summary answer

end Request

/-- What a session keeps. -/
structure Session where
  /-- The registry, once it has been built. -/
  registry : Option Registry := none
  /-- The workspaces by their roots. -/
  workspaces : OrderedMap String Workspace := OrderedMap.empty

namespace Session

/-- The registry, which is built when it is first needed. -/
def needRegistry (s : Session) (world : World) : Traced (Registry × Session) :=
  match s.registry with
  | some r => return (r, s)
  | none => do
    let r ← Registry.buildDefault world.pack
    return (r, { s with registry := some r })

/-- The workspace of a root, which is opened when it is first needed. -/
def needWorkspace (s : Session) (world : World) (root : String) : Traced (Workspace × Session) :=
  match s.workspaces.get? root with
  | some w => return (w, s)
  | none => do
    let (registry, s) ← s.needRegistry world
    let w := Workspace.fresh { projectRoot := root } registry
    return (w, { s with workspaces := s.workspaces.insert root w })

/-! ## Answers -/

/-- The answer for a project without a workspace. -/
def notIndexed (root : String) : String :=
  "Workspace " ++ root ++ " has not been indexed in this session. Run index_workspace first."

/-- The answer after a scan. -/
def scanAnswer (w : Workspace) : String :=
  "Indexed " ++ w.config.projectRoot ++ "\n"
    ++ "  files:     " ++ Text.number w.index.size ++ "\n"
    ++ "  functions: " ++ Text.number w.index.totalFunctions ++ "\n"
    ++ "  classes:   " ++ Text.number w.index.totalClasses ++ "\n"
    ++ (if w.stats.skipped = 0 then "" else "  skipped:   " ++ Text.number w.stats.skipped ++ "\n")

/-- The lines about one place where a function is. -/
def locationLines (place : String × FunctionInfo) : List String :=
  let (path, f) := place
  [ path ++ ":" ++ Text.number f.lineStart ++ "–" ++ Text.number f.lineEnd,
    "  signature:  " ++ f.signature,
    "  complexity: " ++ Text.number f.complexity ++ "  visibility: " ++ f.visibility ]

/-- The answer for the name of a function. -/
def findAnswer (w : Workspace) (name : String) : String :=
  match w.index.locations name with
  | [] => "Function not found: " ++ name
  | places => Text.joinWith "\n" (places.flatMap locationLines)

/-- How many functions the overview lists. -/
def overviewLimit : Nat := 10

/-- The most complex functions of a workspace. -/
def mostComplex (w : Workspace) : List (String × FunctionInfo) :=
  w.index.ranking.take overviewLimit

/-- The line of the overview about a function. -/
def rankedLine (place : String × FunctionInfo) : String :=
  let (path, f) := place
  "  " ++ Text.padRight 40 f.name ++ " cc=" ++ Text.padRight 3 (Text.number f.complexity) ++ " ("
    ++ path ++ ":" ++ Text.number f.lineStart ++ ")"

/-- The part of the overview about the most complex functions; there is none without functions. -/
def rankedLines (w : Workspace) : List String :=
  match mostComplex w with
  | [] => []
  | places => "\nMost complex functions:" :: places.map rankedLine

/-- The overview of a workspace. -/
def overviewAnswer (root : String) (w : Workspace) : String :=
  Text.joinWith "\n"
    (["Workspace: " ++ root, "Files:     " ++ Text.number w.index.size]
      ++ w.stats.sortedCounts.map (fun c => "  " ++ c.1 ++ ": " ++ Text.number c.2)
      ++ ["Functions: " ++ Text.number w.index.totalFunctions,
        "Classes:   " ++ Text.number w.index.totalClasses]
      ++ rankedLines w)

/-! ## Requests -/

/-- Makes the index of a workspace anew. -/
def indexWorkspace [PatternEngine] (s : Session) (world : World) (path : String) :
    Traced (Except Failure String × Session) := do
  match world.fs.resolve (Path.parse path) with
  | .error e => return (.error e, s)
  | .ok here =>
    world.fs.glance here
    let (w, s) ← s.needWorkspace world here.text
    let (result, w) ← w.scan world.pack (world.fs.looked here) {}
    let s := { s with workspaces := s.workspaces.insert here.text w }
    return (result.map (fun _ => scanAnswer w), s)

/-- Shows the outline of a file. -/
def analyzeFile (s : Session) (world : World) (path language : String) :
    Traced (Except Failure String × Session) :=
  match Workspace.languageFor (some language) path with
  | none => return (.ok ("Cannot tell the language of " ++ path), s)
  | some language =>
    match world.fs.readSource path with
    | .error e => return (if e.isExpected then .ok e.message else .error e, s)
    | .ok source => do
      let (registry, s) ← s.needRegistry world
      let analyzer : Analyzer := ⟨world.pack, registry, false⟩
      match ← analyzer.analyze? source.text language (Path.parse path).name with
      | .error e => return (.error e, s)
      | .ok none => return (.ok ("Cannot analyze " ++ path ++ " as " ++ language), s)
      | .ok (some outline) => return (.ok outline.toJson.pretty, s)

/-- Answers from the workspace of a project, if the session has one. -/
def ofWorkspace (s : Session) (world : World) (project : String)
    (answer : String → Workspace → String) : Traced (Except Failure String) := do
  match world.fs.resolve (Path.parse project) with
  | .error e => return .error e
  | .ok here =>
    world.fs.glance here
    match s.workspaces.get? here.text with
    | none =>
      world.fs.glance here
      return .ok (notIndexed here.text)
    | some w => return .ok (answer here.text w)

/-- Shows the function around a line of a file. -/
def enclosingFunction (s : Session) (world : World) (path : String) (line : Int)
    (project : String) : Traced (Except Failure String × Session) := do
  match world.fs.resolve (Path.parse project) with
  | .error e => return (.error e, s)
  | .ok here =>
    world.fs.glance here
    let (w, s) ← s.needWorkspace world here.text
    match ← w.enclosing? world.pack world.fs path line with
    | .error e => return (.error e, s)
    | .ok none => return (.ok ("No function encloses " ++ path ++ ":" ++ Text.number line), s)
    | .ok (some f) => return (.ok f.toJson.pretty, s)

/-- Answers a request.  The log names the line that is asked about, so that no line is accepted that
cannot be written. -/
def answer [PatternEngine] (s : Session) (world : World) :
    Request → Traced (Except Failure String × Session)
  | .indexWorkspace path => s.indexWorkspace world path
  | .analyzeFile path language => s.analyzeFile world path language
  | .findFunction name project => do
    return (← s.ofWorkspace world project (fun _ w => findAnswer w name), s)
  | .enclosingFunction path line project =>
    if Text.isReadable line then s.enclosingFunction world path line project
    else return (.error .tooManyDigits, s)
  | .workspaceOverview project => do
    return (← s.ofWorkspace world project overviewAnswer, s)

end Session

end SourceIndex
