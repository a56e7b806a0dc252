import SourceIndex.CommandLine.Command
import SourceIndex.Workspace.Scan
import SourceIndex.World

/-!
# Running commands

Each command prints what it finds to standard output and what hinders it to standard error, and
ends with a status: zero if it found something.  Printing is an event of the trace, so the lines of
the log stand among the printed lines in their place.
-/

namespace SourceIndex.CommandLine

/-- How requests reach a server. -/
inductive Transport where
  | stdio
  | http (host : String) (port : Option Int)
deriving DecidableEq, Repr

/-- How a command ends. -/
inductive Finish where
  | exit (status : Nat)
  /-- The program goes on as a server. -/
  | serve (transport : Transport)
deriving DecidableEq, Repr

/-- Why a command breaks off. -/
inductive Crash where
  /-- Something failed for a reason that is not to be expected. -/
  | failure (cause : Failure)
  /-- An import has no first line. -/
  | emptyImport
  /-- The number of workers is blank. -/
  | blankWorkers
  /-- The line to look for is blank. -/
  | blankLine
  /-- The path of the workspace is blank. -/
  | blankPath
deriving DecidableEq, Repr

/-- What is said of a command that breaks off. -/
def Crash.message : Crash → String
  | failure cause => cause.message
  | emptyImport => "list index out of range"
  | blankWorkers => "the number of workers is blank"
  | blankLine => "the line is blank"
  | blankPath => "the path is blank"

/-- Prints a line to standard output. -/
def print (line : String) : Traced Unit := Traced.emit (.out line)

/-- Prints a line to standard error. -/
def complain (line : String) : Traced Unit := Traced.emit (.err line)

/-! ## Outlines -/

/-- Prints the first line of each import, up to one that has none. -/
def printImports : List String → Traced (Except Crash Unit)
  | [] => return .ok ()
  | text :: rest =>
    match Text.lines text.toList with
    | [] => return .error .emptyImport
    | first :: _ => do
      print ("    " ++ String.ofList first)
      printImports rest

/-- The line about a function. -/
def functionLine (f : FunctionInfo) : String :=
  "    " ++ Text.padLeft 5 (Text.number f.lineStart) ++ "–"
    ++ Text.padRight 5 (Text.number f.lineEnd) ++ " " ++ Text.padRight 9 f.visibility ++ " "
    ++ f.name ++ "(" ++ Text.joinWith ", " (f.params.map (fun p => p.name ++ ": " ++ p.type))
    ++ ") -> " ++ f.returnType ++ "  cc=" ++ Text.number f.complexity

/-- Prints an outline. -/
def printOutline (o : Outline) : Traced (Except Crash Unit) := do
  print (o.fileName ++ "  (" ++ o.language ++ ")")
  unless o.imports.isEmpty do
    print ("  imports: " ++ Text.number o.imports.length)
  match ← printImports o.imports with
  | .error e => return .error e
  | .ok () =>
    unless o.classes.isEmpty do
      print ("  classes: " ++ Text.joinWith ", " o.classes)
    print ("  functions: " ++ Text.number o.functions.length)
    Traced.emitAll (o.functions.map (fun f => .out (functionLine f)))
    return .ok ()

/-! ## Files -/

/-- Reads a file and tells its language, or says why not. -/
def readBuffer (world : World) (file : String) (language : Option String) :
    Traced (Except Crash (Option (String × String))) :=
  match Workspace.languageFor language file with
  | none => do
    complain ("Cannot tell the language of " ++ file ++ "; pass --language")
    return .ok none
  | some language =>
    match world.fs.readSource file with
    | .error e =>
      if e.isExpected then do
        complain e.message
        return .ok none
      else return .error (.failure e)
    | .ok source => return .ok (some (source.text, language))

/-- Reads a file, builds the registry, and goes on with both; the status is one if the file cannot be
read. -/
def withBuffer (world : World) (file : String) (language : Option String)
    (go : Analyzer → String → String → Traced (Except Crash Finish)) :
    Traced (Except Crash Finish) := do
  match ← readBuffer world file language with
  | .error e => return .error e
  | .ok none => return .ok (.exit 1)
  | .ok (some (text, language)) =>
    let registry ← Registry.buildDefault world.pack
    go ⟨world.pack, registry, false⟩ text language

/-- Says that a file has no outline. -/
def cannotAnalyze (file language : String) : Traced (Except Crash Finish) := do
  complain ("Cannot analyze " ++ file ++ " as " ++ language)
  return .ok (.exit 1)

/-- Shows the outline of a file. -/
def runOutline (world : World) (file : String) (language : Option String) (json : Bool) :
    Traced (Except Crash Finish) :=
  withBuffer world file language fun analyzer text language => do
    match ← analyzer.analyze? text language (Path.parse file).name with
    | .error e => return .error (.failure e)
    | .ok none => cannotAnalyze file language
    | .ok (some outline) =>
      if json then
        print outline.toJson.pretty
        return .ok (.exit 0)
      else
        match ← printOutline outline with
        | .error e => return .error e
        | .ok () => return .ok (.exit 0)

/-- The outline of a text, and the function that a line of it belongs to.  No function can be asked
whether a blank line is its own, so the outline must have none. -/
def locate (analyzer : Analyzer) (text : String) (line : Option Int) (language fileName : String) :
    Traced (Except Crash (Option Enclosing)) := do
  match line with
  | some line =>
    match ← analyzer.enclosing? text line language fileName with
    | .error e => return .error (.failure e)
    | .ok found => return .ok found
  | none =>
    match ← analyzer.analyze? text language fileName with
    | .error e => return .error (.failure e)
    | .ok none => return .ok none
    | .ok (some outline) =>
      if outline.functions.isEmpty then return .ok (some ⟨none, outline⟩)
      else return .error .blankLine

/-- A line number as text. -/
def lineText (line : Option Int) : String :=
  match line with
  | some n => Text.number n
  | none => "[]"

/-- Prints what is known of the place of a line. -/
def printEnclosing (line : Option Int) (found : Enclosing) : Traced Unit :=
  match found.function with
  | none => print ("No function encloses line " ++ lineText line)
  | some f => do
    print (f.name ++ "  lines " ++ Text.number f.lineStart ++ "–" ++ Text.number f.lineEnd
      ++ "  complexity " ++ Text.number f.complexity)
    print ("  " ++ f.signature)

/-- Shows the function around a line of a file. -/
def runAtLine (world : World) (file : String) (line : Option Int) (language : Option String)
    (json : Bool) : Traced (Except Crash Finish) :=
  withBuffer world file language fun analyzer text language => do
    match ← locate analyzer text line language (Path.parse file).name with
    | .error e => return .error e
    | .ok none => cannotAnalyze file language
    | .ok (some found) =>
      if json then print found.toJson.pretty else printEnclosing line found
      return .ok (.exit (if found.function.isSome then 0 else 1))

/-! ## Workspaces -/

/-- Opens a workspace. -/
def openWorkspace (world : World) (config : Config) : Traced Workspace := do
  let registry ← Registry.buildDefault world.pack
  return Workspace.fresh config registry

/-- Resolves the path of a workspace and goes on with its root, in the world after the look that
this takes. -/
def withRoot (world : World) (path : String)
    (go : World → String → Traced (Except Crash Finish)) : Traced (Except Crash Finish) := do
  match world.fs.resolve (Path.parse path) with
  | .error e => return .error (.failure e)
  | .ok here =>
    world.fs.glance here
    go { world with fs := world.fs.looked here } here.text

/-- Prints what a scan has found. -/
def printScan (w : Workspace) : Traced Unit := do
  print ("  files:     " ++ Text.number w.index.size)
  print ("  functions: " ++ Text.number w.index.totalFunctions)
  print ("  classes:   " ++ Text.number w.index.totalClasses)
  Traced.emitAll (w.stats.sortedCounts.map (fun c =>
    .out ("    " ++ c.1 ++ ": " ++ Text.number c.2 ++ " files")))
  if w.stats.skipped ≠ 0 then
    complain ("  skipped:   " ++ Text.number w.stats.skipped)
  if w.stats.seen ≠ 0 ∧ w.stats.indexed = 0 then
    complain "  warning: no files could be indexed"

/-- Whether a scan gets as far as the first file. -/
def reachesFiles [PatternEngine] (world : World) (config : Config) : Bool :=
  match (discover world.fs config).value with
  | .ok _ => true
  | .error _ => false

/-- Indexes a workspace.  A blank number of workers matters once the files have been discovered. -/
def runIndex [PatternEngine] (world : World) (config : Config) (json withoutWorkers : Bool) :
    Traced (Except Crash Finish) := do
  let w ← openWorkspace world config
  complain ("Indexing " ++ config.projectRoot)
  if withoutWorkers && reachesFiles world config then
    Traced.emitAll (discover world.fs config).events
    return .error .blankWorkers
  else
    let (result, w) ← w.scan world.pack world.fs {}
    match result with
    | .error e => return .error (.failure e)
    | .ok () =>
      if json then print w.index.toJson.pretty else printScan w
      return .ok (.exit 0)

/-- The line about a place where a function is. -/
def placeLine (place : String × FunctionInfo) : String :=
  place.1 ++ ":" ++ Text.number place.2.lineStart ++ "  " ++ place.2.signature

/-- Tells where functions of a name are. -/
def runFind [PatternEngine] (world : World) (name root : String) : Traced (Except Crash Finish) := do
  let w ← openWorkspace world { projectRoot := root }
  let (result, w) ← w.scan world.pack world.fs {}
  match result with
  | .error e => return .error (.failure e)
  | .ok () =>
    match w.index.locations name with
    | [] =>
      print ("Function not found: " ++ name)
      return .ok (.exit 1)
    | places =>
      Traced.emitAll (places.map (fun p => .out (placeLine p)))
      return .ok (.exit 0)

/-- Lists the languages with their grammars. -/
def runLanguages (world : World) : Traced (Except Crash Finish) := do
  let registry ← Registry.buildDefault world.pack
  Traced.emitAll (registry.languages.map (fun l =>
    .out (Text.padRight 18 l ++ " " ++ (registry.grammar? l).getD "?")))
  return .ok (.exit 0)

/-! ## All commands -/

/-- Runs a command. -/
def Command.run [PatternEngine] (world : World) : Command → Traced (Except Crash Finish)
  | .index path json workers strict noGitignore =>
    withRoot world path fun world root =>
      runIndex world
        { projectRoot := root, workers := workers.getD 1, strict, respectGitignore := !noGitignore }
        json workers.isNone
  | .outline file language json => runOutline world file language json
  | .find _ none => return .error .blankPath
  | .find name (some path) => withRoot world path fun world root => runFind world name root
  | .atLine file line language json => runAtLine world file line language json
  | .languages => runLanguages world
  | .serve http port =>
    return .ok (.serve (if http then .http "127.0.0.1" port else .stdio))

/-! ## The console -/

/-- What an event writes to standard output. -/
def stdoutOf : Event → String
  | .out line => line ++ "\n"
  | _ => ""

/-- What an event writes to standard error; without `verbose`, of the log only warnings show. -/
def stderrOf (verbose : Bool) : Event → String
  | .err line => line ++ "\n"
  | .log m => if verbose || m.level == .warning then m.consoleLine ++ "\n" else ""
  | _ => ""

/-- What a command leaves on standard output. -/
def stdout (events : List Event) : String :=
  String.join (events.map stdoutOf)

/-- What a command leaves on standard error. -/
def stderr (verbose : Bool) (events : List Event) : String :=
  String.join (events.map (stderrOf verbose))

end SourceIndex.CommandLine
