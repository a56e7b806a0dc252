import SourceIndex.Grammar.Registry

/-!
# The registry at hand

A process works with one registry at a time.  It can build another, or turn to the default registry,
which is built when it is first wanted and from then on is the same one: what is changed in it stays
changed when the process comes back to it.
-/

namespace SourceIndex

/-- The registry at hand, and the default registry. -/
structure RegistryDesk where
  current : Registry := Registry.empty
  /-- The default registry, once it has been built. -/
  shared : Option Registry := none
  /-- Whether the registry at hand is the default one. -/
  onShared : Bool := false

/-- Why a grammar is not registered. -/
inductive RegisterError where
  /-- It cannot be loaded. -/
  | notLoadable
  | noTable (cause : NoTable)
deriving DecidableEq, Repr

/-- What is said of a grammar that is not registered. -/
def RegisterError.message : RegisterError → String
  | notLoadable => GrammarPack.loadFailure
  | noTable cause => cause.message

namespace RegistryDesk

/-- Puts a changed registry in the place of the one at hand. -/
def update (d : RegistryDesk) (r : Registry) : RegistryDesk :=
  { d with current := r, shared := if d.onShared then some r else d.shared }

/-- Turns to a newly built registry. -/
def turnTo (d : RegistryDesk) (r : Registry) : RegistryDesk :=
  { d with current := r, onShared := false }

/-- Turns to the default registry. -/
def turnToDefault (d : RegistryDesk) (pack : GrammarPack) : Traced RegistryDesk := do
  let r ← match d.shared with
    | some r => pure r
    | none => Registry.buildDefault pack
  return ⟨r, some r, true⟩

/-- Registers a grammar for a language, without loading it. -/
def register (d : RegistryDesk) (language grammar : String) :
    Traced (Except RegisterError RegistryDesk) := do
  match ← d.current.register language grammar with
  | .ok r => return .ok (d.update r)
  | .error e => return .error (.noTable e)

/-- Loads a grammar and registers it for a language. -/
def load (d : RegistryDesk) (pack : GrammarPack) (language grammar : String) :
    Traced (Except RegisterError RegistryDesk) := do
  Traced.emit (.load grammar)
  if pack.loads grammar then d.register language grammar else return .error .notLoadable

/-- Removes a language. -/
def unregister (d : RegistryDesk) (language : String) : RegistryDesk :=
  d.update (d.current.unregister language)

end RegistryDesk

end SourceIndex
