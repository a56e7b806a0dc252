import SourceIndex.CommandLine.Run
import SourceIndex.Ignore.Rules

/-!
# The program

The outermost layer: it reads the files that a command is about, runs the command on them, and
writes what the command printed to the console, in order.

A command about a single file reads that file.  A command about a workspace reads the files that
standard input lists, one path to a line.  Parsers are supplied by a program that embeds the
library; run by itself, it has none.
-/

namespace SourceIndex.Program

/-- The lines of a stream, up to its end. -/
partial def readLines (stream : IO.FS.Stream) (seen : List String) : IO (List String) := do
  let line ← stream.getLine
  if line.isEmpty then return seen.reverse
  readLines stream (String.ofList (line.toList.filter (· != '\n')) :: seen)

/-- The paths of the files that a command is about. -/
def filesOf : CommandLine.Command → IO (List String)
  | .outline file _ _ => return [file]
  | .atLine file _ _ _ => return [file]
  | .index _ _ _ _ _ => do readLines (← IO.getStdin) []
  | .find _ _ => do readLines (← IO.getStdin) []
  | _ => return []

/-- Takes a file into the file system, if it can be read. -/
def load (fs : FileSystem) (path : String) : IO FileSystem := do
  try
    let content ← IO.FS.readBinFile path
    return fs.write (Path.parse path) (.file content.toList)
  catch _ => return fs

/-- The file system that holds the files a command is about. -/
def snapshot (command : CommandLine.Command) : IO FileSystem := do
  let here := (Path.parse ((← IO.getEnv "PWD").getD "/")).parts
  let start := if proper : Location.Proper here then FileSystem.bare here proper
    else FileSystem.bare [] proper_nil
  (← filesOf command).foldlM load start

/-- The pack without grammars. -/
def noGrammars : GrammarPack := GrammarPack.ofRecordings [] []

/-- Writes what an event prints. -/
def display (verbose : Bool) (e : Event) : IO Unit := do
  (← IO.getStdout).putStr (CommandLine.stdoutOf e)
  (← IO.getStderr).putStr (CommandLine.stderrOf verbose e)

/-- Runs a command and gives its status. -/
def run (i : CommandLine.Invocation) : IO UInt32 := do
  let result := i.command.run ⟨noGrammars, ← snapshot i.command⟩
  result.events.forM (display i.verbose)
  match result.value with
  | .ok (.exit status) => return UInt32.ofNat status
  | .ok (.serve _) =>
    IO.eprintln "no server transport is at hand"
    return 1
  | .error e =>
    IO.eprintln e.message
    return 1

end SourceIndex.Program

/-- Reads the command line and runs its command; a command line that cannot be read has status two. -/
def main (args : List String) : IO UInt32 := do
  match SourceIndex.CommandLine.Invocation.read args with
  | .ok i => SourceIndex.Program.run i
  | .error .usage =>
    IO.eprintln "usage: [-v] (index | outline | find | at | languages | serve) ..."
    return 2
  | .error .help =>
    IO.println "usage: [-v] (index | outline | find | at | languages | serve) ..."
    return 0
