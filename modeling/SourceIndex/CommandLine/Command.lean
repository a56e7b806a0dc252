import SourceIndex.CommandLine.Arguments

/-!
# Commands

The commands of the program, and how each is read from the command line.  Options of the program as
a whole stand before the command.

What may be given blank is optional in the command even where it has a default.
-/

namespace SourceIndex.CommandLine

/-- What the program is asked to do. -/
inductive Command where
  /-- Indexes a workspace. -/
  | index (path : String) (json : Bool) (workers : Option Int) (strict noGitignore : Bool)
  /-- Shows the outline of a file. -/
  | outline (file : String) (language : Option String) (json : Bool)
  /-- Tells where functions of a name are. -/
  | find (name : String) (path : Option String)
  /-- Shows the function around a line of a file. -/
  | atLine (file : String) (line : Option Int) (language : Option String) (json : Bool)
  /-- Lists the languages. -/
  | languages
  /-- Serves requests. -/
  | serve (http : Bool) (port : Option Int)
deriving DecidableEq, Repr

/-- A command, and whether the log is shown in full. -/
structure Invocation where
  verbose : Bool
  command : Command
deriving DecidableEq, Repr

/-! ## Layouts -/

/-- The layout of a command with the given options, besides that for help, and operands. -/
def commandLayout (options : List Opt) (operands : List Operand) : Layout :=
  ⟨help :: options, operands⟩

/-- The layout of what stands before the command. -/
def programLayout : Layout :=
  commandLayout [⟨"--verbose", some "-v", .flag⟩] []

/-- The option for a language. -/
def languageOption : Opt := ⟨"--language", none, .text⟩

/-- The option for JSON. -/
def jsonOption : Opt := ⟨"--json", none, .flag⟩

/-! ## Reading -/

/-- Reads the words after the name of a command; `none` if there is no such command. -/
def Command.read? (name : String) (words : List String) : Option (Except Refusal Command) :=
  match name with
  | "index" => some do
    let g ← (commandLayout
      [jsonOption, ⟨"--workers", none, .integer⟩, ⟨"--strict", none, .flag⟩,
        ⟨"--no-gitignore", none, .flag⟩]
      [⟨"path", .text, false⟩]).read words
    return .index ((g.text? "path").getD ".") (g.flag "--json") (g.integerOr "--workers" 1)
      (g.flag "--strict") (g.flag "--no-gitignore")
  | "outline" => some do
    let g ← (commandLayout [languageOption, jsonOption] [⟨"file", .text, true⟩]).read words
    return .outline ((g.text? "file").getD "") (g.text? "--language") (g.flag "--json")
  | "find" => some do
    let g ← (commandLayout [⟨"--path", none, .text⟩] [⟨"name", .text, true⟩]).read words
    return .find ((g.text? "name").getD "") (g.textOr "--path" ".")
  | "at" => some do
    let g ← (commandLayout [languageOption, jsonOption]
      [⟨"file", .text, true⟩, ⟨"line", .integer, true⟩]).read words
    return .atLine ((g.text? "file").getD "") (g.integer? "line") (g.text? "--language")
      (g.flag "--json")
  | "languages" => some do
    let _ ← (commandLayout [] []).read words
    return .languages
  | "serve" => some do
    let g ← (commandLayout [⟨"--http", none, .flag⟩, ⟨"--port", none, .integer⟩] []).read words
    return .serve (g.flag "--http") (g.integerOr "--port" 8000)
  | _ => none

/-- Reads the words from the first that the program's own options leave over. -/
def Invocation.readFrom (g : Given) : List String → Except Refusal Invocation
  | [] => .error .usage
  | "--" :: _ => .error .usage
  | word :: rest => do
    match ← programLayout.token word with
    | .plain name =>
      match Command.read? name rest with
      | none => .error .usage
      | some command => do
        let command ← command
        if g.surplus then .error .usage else return ⟨g.flag "--verbose", command⟩
    | token => do
      let g ← Given.read programLayout g [token]
      readFrom g rest

/-- Reads a command line; a word that may stand for several of the program's own options is refused
wherever it stands. -/
def Invocation.read (words : List String) : Except Refusal Invocation := do
  let _ ← programLayout.tokens words
  readFrom { expected := [] } words

end SourceIndex.CommandLine
