import SourceIndex.Failure
import SourceIndex.Grammar.Registry
import SourceIndex.Outline.OfTree

/-!
# Analysing a source text

The way from a text to its outline: the language decides the grammar, the grammar's parser gives a
tree, and the language's table reads the outline off the tree.

A strict analyzer refuses a tree in which the parser had to recover from an error.
-/

namespace SourceIndex

/-- What an analysis depends on besides the text. -/
structure Analyzer where
  pack : GrammarPack
  registry : Registry
  /-- Whether trees with errors are refused. -/
  strict : Bool

/-- The root of a tree that a parser handed over. -/
def ParsedTree.root : ParsedTree → Except Failure Tree
  | .whole root _ => .ok root
  | .broken reason => .error (.brokenTree reason)

/-- What strictness makes of a tree. -/
def ParsedTree.check (strict : Bool) (language : String) (parsed : ParsedTree) :
    Except Failure ParsedTree :=
  match strict, parsed with
  | true, .whole _ true => .error (.unparsable language "source contains syntax errors")
  | true, .broken reason => .error (.brokenTree reason)
  | _, parsed => .ok parsed

/-- What the outcome of a parser means for an analysis. -/
def ParseOutcome.check (strict : Bool) (language : String) : ParseOutcome → Except Failure ParsedTree
  | .raised reason => .error (.unparsable language reason)
  | .nothing => .error (.unparsable language "parser returned no tree")
  | .tree parsed => parsed.check strict language

/-- What is known of the place of a line in a text. -/
structure Enclosing where
  function : Option FunctionInfo
  outline : Outline
deriving DecidableEq, Repr

namespace Analyzer

/-- The tree of a source in a language. -/
def parse (a : Analyzer) (source : Bytes) (language : String) :
    Traced (Except Failure ParsedTree) :=
  match a.registry.parser? a.pack language with
  | none => return .error (.unsupportedLanguage language)
  | some parser => do
    Traced.emit (.parse parser.grammar)
    return (parser.run source).check a.strict language

/-- The outline of a text in a language. -/
def analyze (a : Analyzer) (text language fileName : String) : Traced (Except Failure Outline) :=
  match a.registry.table? language with
  | none => return .error (.unsupportedLanguage language)
  | some table => do
    let source := Utf8.encode text.toList
    match (← a.parse source language).bind ParsedTree.root with
    | .error e => return .error e
    | .ok root => do
      let outline ← Outline.extract table source language fileName root
      return .ok outline

/-- The outline of a text, or nothing, with a report, if there is none for a reason that is to be
expected. -/
def analyze? (a : Analyzer) (text language fileName : String) :
    Traced (Except Failure (Option Outline)) := do
  match ← a.analyze text language fileName with
  | .ok outline => return .ok (some outline)
  | .error (.unsupportedLanguage _) =>
    Traced.report .debug .outline ("No grammar for language: " ++ language)
    return .ok none
  | .error (.unparsable l reason) =>
    let name := if fileName.isEmpty then "<buffer>" else fileName
    Traced.report .warning .outline
      ("Parse error in " ++ name ++ ": " ++ (Failure.unparsable l reason).message)
    return .ok none
  | .error e => return .error e

/-- The outline of a text, and the function that a line of it belongs to. -/
def enclosing? (a : Analyzer) (text : String) (line : Int) (language fileName : String) :
    Traced (Except Failure (Option Enclosing)) := do
  let found ← a.analyze? text language fileName
  return found.map (Option.map (fun o => ⟨o.enclosing? line, o⟩))

end Analyzer

end SourceIndex
