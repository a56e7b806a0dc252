import SourceIndex.Path

/-!
# Effects as data

Besides its value, an operation may report to the log, load a grammar, call a parser, look at a file
that comes and goes, or write to the console.  A `Traced` value holds the value together with all of
that, in order, so that what an operation does can be stated and compared like what it returns.

**Order is kept**: the events of `x >>= f` are those of `x` followed by those of `f` on its value
(`events_bind`).
-/

namespace SourceIndex

/-! ## Log messages -/

/-- How grave a message is. -/
inductive Level where
  | debug
  | info
  | warning
deriving DecidableEq, Repr

namespace Level

/-- The name of a level. -/
def name : Level → String
  | debug => "DEBUG"
  | info => "INFO"
  | warning => "WARNING"

/-- The place of a level among the others. -/
def rank : Level → Nat
  | debug => 0
  | info => 1
  | warning => 2

end Level

/-- The part of the program that a message comes from. -/
inductive Origin where
  | registry
  | outline
  | discovery
  | workspace
deriving DecidableEq, Repr

/-- The name under which a part of the program writes to the log. -/
def Origin.logger : Origin → String
  | .registry => "polyglot_index.grammars"
  | .outline => "polyglot_index.extract"
  | .discovery => "polyglot_index.discover"
  | .workspace => "polyglot_index.indexer"

/-- One message of the log. -/
structure Message where
  level : Level
  origin : Origin
  text : String
deriving DecidableEq, Repr

/-- A message with its level in front. -/
def Message.line (m : Message) : String :=
  m.level.name ++ " " ++ m.text

/-- A message with its level and the name of its logger in front. -/
def Message.consoleLine (m : Message) : String :=
  m.level.name ++ " " ++ m.origin.logger ++ ": " ++ m.text

/-! ## Events -/

/-- What an operation may do besides returning a value. -/
inductive Event where
  /-- Reports to the log. -/
  | log (message : Message)
  /-- Tries to load a grammar. -/
  | load (grammar : String)
  /-- Calls the parser of a grammar. -/
  | parse (grammar : String)
  /-- Looks whether something stands at a place where it may be missed. -/
  | look (here : Location)
  /-- Writes a line to standard output. -/
  | out (line : String)
  /-- Writes a line to standard error. -/
  | err (line : String)
deriving DecidableEq, Repr

/-- The message an event reports, if it reports one. -/
def Event.message? : Event → Option Message
  | .log m => some m
  | _ => none

/-- Whether an event is a call of a parser. -/
def Event.isParse : Event → Bool
  | .parse _ => true
  | _ => false

/-- A value, and what was done on the way to it. -/
structure Traced (α : Type) where
  value : α
  events : List Event
deriving DecidableEq, Repr

namespace Traced

variable {α β : Type}

instance : Monad Traced where
  pure a := ⟨a, []⟩
  bind x f := ⟨(f x.value).value, x.events ++ (f x.value).events⟩

@[simp] theorem value_pure (a : α) : (pure a : Traced α).value = a := rfl

@[simp] theorem events_pure (a : α) : (pure a : Traced α).events = [] := rfl

@[simp] theorem value_bind (x : Traced α) (f : α → Traced β) :
    (x >>= f).value = (f x.value).value := rfl

@[simp] theorem events_bind (x : Traced α) (f : α → Traced β) :
    (x >>= f).events = x.events ++ (f x.value).events := rfl

/-- Does one thing. -/
def emit (e : Event) : Traced Unit := ⟨(), [e]⟩

/-- Does several things. -/
def emitAll (es : List Event) : Traced Unit := ⟨(), es⟩

/-- Reports to the log. -/
def report (level : Level) (origin : Origin) (text : String) : Traced Unit :=
  emit (.log ⟨level, origin, text⟩)

@[simp] theorem events_emit (e : Event) : (emit e).events = [e] := rfl

@[simp] theorem events_emitAll (es : List Event) : (emitAll es).events = es := rfl

@[simp] theorem events_report (level : Level) (origin : Origin) (text : String) :
    (report level origin text).events = [.log ⟨level, origin, text⟩] := rfl

/-- The messages reported, in order. -/
def messages (x : Traced α) : List Message :=
  x.events.filterMap Event.message?

/-- How often a parser was called. -/
def parseCount (x : Traced α) : Nat :=
  x.events.countP Event.isParse

end Traced

instance : LawfulMonad Traced :=
  LawfulMonad.mk' Traced (fun _ => by simp [Functor.map]) (fun _ _ => rfl)
    (fun _ _ _ => by simp [Bind.bind])

end SourceIndex
