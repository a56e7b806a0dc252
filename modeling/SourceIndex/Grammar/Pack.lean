import SourceIndex.SyntaxTree.Basic

/-!
# Grammars and their parsers

Parsers are supplied from outside.  A grammar pack says which grammars can be loaded, and what the
parser of a grammar makes of the bytes of a source file.  A parser keeps no state: its outcome
depends on the grammar and the bytes alone.

A pack can be put together from recordings of earlier parses.
-/

namespace SourceIndex

/-- A tree as a parser hands it over. -/
inductive ParsedTree where
  /-- A tree; `hasError` tells whether the parser had to recover from an error. -/
  | whole (root : Tree) (hasError : Bool)
  /-- A tree whose root cannot be read. -/
  | broken (reason : String)

/-- What a parser makes of a source. -/
inductive ParseOutcome where
  | tree (parsed : ParsedTree)
  /-- The parser gave no tree. -/
  | nothing
  /-- The parser gave up. -/
  | raised (reason : String)

/-- The grammars at hand. -/
structure GrammarPack where
  /-- Whether a grammar can be loaded. -/
  loads : String → Bool
  /-- The outcome of the parser of a grammar on a source. -/
  parse : String → Bytes → ParseOutcome

/-- A parser, made for one grammar. -/
structure Parser where
  grammar : String
  /-- What the parser makes of a source. -/
  run : Bytes → ParseOutcome

/-- A parser for a grammar. -/
def GrammarPack.parser (pack : GrammarPack) (grammar : String) : Parser :=
  ⟨grammar, pack.parse grammar⟩

/-- What is said of a grammar that cannot be loaded. -/
def GrammarPack.loadFailure : String := "no such grammar"

/-- What a parser made of a source once. -/
structure Recording where
  grammar : String
  source : Bytes
  outcome : ParseOutcome

/-- The pack whose parsers answer from recordings, the first that fits, and give up on all else. -/
def GrammarPack.ofRecordings (available : List String) (recordings : List Recording) :
    GrammarPack where
  loads grammar := available.contains grammar
  parse grammar source :=
    match recordings.find? (fun r => r.grammar == grammar && r.source == source) with
    | some r => r.outcome
    | none => .raised "no tree recorded"

end SourceIndex
