import SourceIndex.Data.OrderedMap
import SourceIndex.Grammar.Pack
import SourceIndex.LanguageTable.BuiltIn
import SourceIndex.Trace

/-!
# The registry of languages

A registry says which grammar reads the files of a language.  Several languages may share a
grammar.  Only grammars with a language table are registered, so that every language of a registry
can be analysed.

A registry is built from a mapping of languages to grammars.  **Each grammar is loaded at most
once**, however many languages use it; languages whose grammar cannot be loaded, or has no table,
are reported and left out.
-/

namespace SourceIndex

/-- The grammars of the known languages, by language. -/
structure Registry where
  grammars : OrderedMap String String

/-- A grammar without a language table cannot be registered. -/
structure NoTable where
  grammar : String
deriving DecidableEq, Repr

/-- What is said of a grammar without a table. -/
def NoTable.message (e : NoTable) : String :=
  "no node classification table for grammar: " ++ e.grammar

namespace Registry

/-- The registry without languages. -/
def empty : Registry := ⟨OrderedMap.empty⟩

/-- The grammar of a language. -/
def grammar? (r : Registry) (language : String) : Option String :=
  r.grammars.get? language

/-- A parser for a language: one for its grammar. -/
def parser? (r : Registry) (pack : GrammarPack) (language : String) : Option Parser :=
  (r.grammar? language).map pack.parser

/-- The language table of a language: that of its grammar. -/
def table? (r : Registry) (language : String) : Option LanguageTable :=
  (r.grammar? language).bind LanguageTable.ofGrammar?

/-- Whether a language is registered. -/
def contains (r : Registry) (language : String) : Bool :=
  r.grammars.contains language

/-- The registered languages, sorted. -/
def languages (r : Registry) : List String :=
  r.grammars.keys.mergeSort (fun a b => decide (a ≤ b))

/-- Registers a grammar for a language, in place of the one it had. -/
def register (r : Registry) (language grammar : String) : Traced (Except NoTable Registry) :=
  match LanguageTable.ofGrammar? grammar with
  | none => return .error ⟨grammar⟩
  | some _ => do
    Traced.report .debug .registry
      ("Registered " ++ language ++ " → " ++ grammar ++ " grammar")
    return .ok ⟨r.grammars.insert language grammar⟩

/-- Removes a language. -/
def unregister (r : Registry) (language : String) : Registry :=
  ⟨r.grammars.erase language⟩

/-! ## Building -/

/-- A registry under construction: the registry so far, and for each grammar that was tried whether
it could be loaded. -/
structure Draft where
  registry : Registry
  tried : OrderedMap String Bool

/-- Whether a grammar can be loaded, trying it only if it has not been tried before. -/
def Draft.load (d : Draft) (pack : GrammarPack) (grammar : String) : Traced (Bool × Draft) :=
  match d.tried.get? grammar with
  | some loaded => return (loaded, d)
  | none => do
    let loaded := pack.loads grammar
    Traced.emit (.load grammar)
    unless loaded do
      Traced.report .warning .registry
        ("Grammar " ++ grammar ++ " not available: " ++ GrammarPack.loadFailure)
    return (loaded, { d with tried := d.tried.insert grammar loaded })

/-- Takes one language of the mapping into the registry. -/
def Draft.add (d : Draft) (pack : GrammarPack) (language grammar : String) : Traced Draft := do
  let (loaded, d) ← d.load pack grammar
  if loaded then
    match ← d.registry.register language grammar with
    | .ok r => return { d with registry := r }
    | .error e =>
      Traced.report .warning .registry ("Skipping " ++ language ++ ": " ++ e.message)
      return d
  else return d

/-- Takes the languages of a mapping into the registry, one after another. -/
def Draft.addAll (pack : GrammarPack) : List (String × String) → Draft → Traced Draft
  | [], d => return d
  | (language, grammar) :: rest, d => do
    let d ← d.add pack language grammar
    addAll pack rest d

/-- The registry for a mapping of languages to grammars. -/
def build (pack : GrammarPack) (mapping : OrderedMap String String) : Traced Registry := do
  let d ← Draft.addAll pack mapping.entries ⟨empty, OrderedMap.empty⟩
  return d.registry

/-- The grammars of the languages that are known without being told. -/
def defaultMapping : OrderedMap String String :=
  OrderedMap.ofList [
    ("java", "java"),
    ("python", "python"),
    ("javascript", "javascript"),
    ("javascriptreact", "javascript"),
    ("typescript", "typescript"),
    ("typescriptreact", "tsx")]

/-- The registry for the default mapping. -/
def buildDefault (pack : GrammarPack) : Traced Registry :=
  build pack defaultMapping

end Registry

end SourceIndex
