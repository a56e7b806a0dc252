import SourceIndex.Text.Integer

/-!
# Reading a command line

A command line is read against a layout: the options that may occur and the operands that are
expected.  Options may stand before, between and after operands.

* A long option may be abbreviated as long as one option only can be meant, and its value may follow
  it directly, after an equals sign.
* Short options without values may be run together, with or without an equals sign after the first.
* What begins with a dash is an option, unless it is a dash alone, a negative number, or holds a
  space.  After `--` everything is an operand.
* `--` gives no value.  Of an operand the first `--` is dropped, be it the one that ends the options
  next to it or its own word, and so is a `--` after an equals sign; what is left without a word is
  given, but blank.

The words are sorted into tokens first and then taken one after another; both recursions are on the
list of words.
-/

namespace SourceIndex.CommandLine

/-! ## Layouts -/

/-- What an option or operand holds. -/
inductive Kind where
  /-- Nothing: the option is there or not. -/
  | flag
  | text
  | integer
deriving DecidableEq, Repr

/-- An option. -/
structure Opt where
  /-- The long name, with its dashes. -/
  name : String
  /-- The short name, with its dash. -/
  short : Option String := none
  kind : Kind
deriving DecidableEq, Repr

/-- Something a command expects that is not an option. -/
structure Operand where
  name : String
  kind : Kind
  required : Bool
deriving DecidableEq, Repr

/-- What a command line may hold. -/
structure Layout where
  options : List Opt
  operands : List Operand

/-- The option that every layout has. -/
def help : Opt := ⟨"--help", some "-h", .flag⟩

/-- The names of an option. -/
def Opt.names (o : Opt) : List String := o.short.toList ++ [o.name]

/-- The option with exactly the given name. -/
def Layout.option? (l : Layout) (name : String) : Option Opt :=
  l.options.find? (fun o => o.names.contains name)

/-! ## Tokens -/

/-- What follows the name of an option in the same word. -/
inductive Attachment where
  | nothing
  /-- A value, after an equals sign. -/
  | value (text : String)
  /-- What stands behind a short name. -/
  | letters (text : String)
deriving DecidableEq, Repr

/-- What a word of a command line is. -/
inductive Token where
  /-- The end of the options. -/
  | separator
  /-- An operand, or the value of the option before it. -/
  | plain (word : String)
  | option (o : Opt) (attached : Attachment)
  /-- Something that looks like an option but is none. -/
  | unknown
deriving DecidableEq, Repr

/-- A command line that cannot be read, or that asks for help. -/
inductive Refusal where
  | usage
  | help
deriving DecidableEq, Repr

/-- A text without the line feed at its end, if it has one there. -/
def dropLineFeed (text : List Char) : List Char :=
  if text.getLast? == some '\n' then text.dropLast else text

/-- Whether a word is a negative number, with or without decimals.  A line feed at its end does not
count. -/
def isNegativeNumber (word : List Char) : Bool :=
  let isDigit (c : Char) := (Text.digitValue? c).isSome
  match dropLineFeed word with
  | '-' :: rest =>
    match rest.dropWhile isDigit with
    | [] => !rest.isEmpty
    | '.' :: decimals => !decimals.isEmpty && decimals.all isDigit
    | _ => false
  | _ => false

/-- A word divided at its first equals sign. -/
def divide (word : List Char) : List Char × Attachment :=
  match word.dropWhile (· != '=') with
  | [] => (word, .nothing)
  | _ :: value => (word.takeWhile (· != '='), .value (String.ofList value))

/-- The options that a word may stand for in a shortened form. -/
def Layout.candidates (l : Layout) (word : List Char) : List Token :=
  match word with
  | '-' :: '-' :: _ =>
    let (name, value) := divide word
    (l.options.filter (fun o => name.isPrefixOf o.name.toList)).map (.option · value)
  | '-' :: c :: rest =>
    (l.options.filter (fun o => o.short == some (String.ofList ['-', c]))).map
      (.option · (.letters (String.ofList rest)))
  | _ => []

/-- What a text after an equals sign is to an option, by the name that stands before the sign: behind
a short name, letters follow even so. -/
def Opt.attachment (o : Opt) (name text : String) : Attachment :=
  if o.short == some name && !text.isEmpty then .letters text else .value text

/-- What a word is that begins with a dash, has more to it, and is not the name of an option. -/
def Layout.dashed (l : Layout) (word : List Char) : Except Refusal Token :=
  let (name, attached) := divide word
  match attached, l.option? (String.ofList name) with
  | .value text, some o => .ok (.option o (o.attachment (String.ofList name) text))
  | _, _ =>
    match l.candidates word with
    | [token] => .ok token
    | _ :: _ :: _ => .error .usage
    | [] =>
      if isNegativeNumber word || word.contains ' ' then .ok (.plain (String.ofList word))
      else .ok .unknown

/-- What a word is that stands before the end of the options. -/
def Layout.token (l : Layout) (word : String) : Except Refusal Token :=
  match word.toList with
  | '-' :: rest =>
    match l.option? word with
    | some o => .ok (.option o .nothing)
    | none => if rest.isEmpty then .ok (.plain word) else l.dashed ('-' :: rest)
  | _ => .ok (.plain word)

/-- What the words of a command line are. -/
def Layout.tokens (l : Layout) : List String → Except Refusal (List Token)
  | [] => .ok []
  | "--" :: rest => .ok (.separator :: rest.map .plain)
  | word :: rest => do
    let token ← l.token word
    let tokens ← l.tokens rest
    return token :: tokens

/-! ## Assignments -/

/-- A value that was given. -/
inductive Value where
  | present
  /-- A value that `--` stands for. -/
  | blank
  | text (text : String)
  | integer (n : Int)
deriving DecidableEq, Repr

/-- The value that a word gives to something of a kind. -/
def Kind.value (kind : Kind) (word : String) : Except Refusal Value :=
  match kind with
  | .flag => .error .usage
  | .text => .ok (.text word)
  | .integer =>
    match Text.readInteger? word.toList with
    | some n => .ok (.integer n)
    | none => .error .usage

/-- The value that a word after an equals sign gives to something of a kind. -/
def Kind.attachedValue (kind : Kind) (word : String) : Except Refusal Value :=
  if kind != .flag && word == "--" then .ok .blank else kind.value word

/-- What a command line gives, as far as it has been read. -/
structure Given where
  /-- Values by name, the latest first. -/
  values : List (String × Value) := []
  /-- The operands still expected. -/
  expected : List Operand
  /-- Whether the last word was an operand. -/
  afterOperand : Bool := false
  /-- Whether the last word was the end of the options, and belongs to the next operand. -/
  afterEnd : Bool := false
  /-- Whether something was given that nobody expects. -/
  surplus : Bool := false

/-- Notes a value. -/
def Given.set (g : Given) (name : String) (value : Value) : Given :=
  { g with values := (name, value) :: g.values, afterOperand := false }

/-- Notes a flag. -/
def Given.setFlag (g : Given) (o : Opt) : Except Refusal Given :=
  if o.name == help.name then .error .help else .ok (g.set o.name .present)

/-- Notes several flags. -/
def Given.setFlags : Given → List Opt → Except Refusal Given
  | g, [] => .ok g
  | g, o :: rest => do
    let g ← g.setFlag o
    setFlags g rest

/-- The short flags that letters stand for; each letter must stand for one. -/
def Layout.shortFlags (l : Layout) : List Char → Except Refusal (List Opt)
  | [] => .ok []
  | c :: rest =>
    match l.option? (String.ofList ['-', c]) with
    | none => .error .usage
    | some o => do
      let flags ← l.shortFlags rest
      return o :: flags

/-- Takes an operand.  A word `--` is its value only if the operand has the end of the options to
drop instead. -/
def Given.operand (g : Given) (word : String) : Except Refusal Given :=
  match g.expected with
  | [] => .ok { g with surplus := true }
  | o :: rest => do
    let value ← if word == "--" && !g.afterEnd then pure .blank else o.kind.value word
    return { g.set o.name value with expected := rest, afterOperand := true, afterEnd := false }

/-- Takes the end of the options, which must stand next to an operand or before one that may come.
It belongs to the operand before it, if there is one. -/
def Given.separator (g : Given) : Given :=
  { g with
    surplus := g.surplus || (g.expected.isEmpty && !g.afterOperand)
    afterEnd := !g.afterOperand }

/-- Takes an option that has nothing to wait for. -/
def Given.setOption (l : Layout) (g : Given) (o : Opt) : Attachment → Except Refusal Given
  | .nothing => if o.kind == .flag then g.setFlag o else .error .usage
  | .value text => do
    let value ← o.kind.attachedValue text
    return g.set o.name value
  | .letters text =>
    if o.kind == .flag then do
      let flags ← l.shortFlags text.toList
      g.setFlags (o :: flags)
    else do
      let value ← o.kind.attachedValue text
      return g.set o.name value

/-- Takes the tokens of a command line one after another. -/
def Given.read (l : Layout) : Given → List Token → Except Refusal Given
  | g, [] => .ok g
  | g, .separator :: rest => read l g.separator rest
  | g, .unknown :: rest => read l { g with surplus := true } rest
  | g, .plain word :: rest => do
    let g ← g.operand word
    read l g rest
  | g, .option o .nothing :: .plain word :: rest =>
    if o.kind == .flag then do
      let g ← g.setFlag o
      read l g (.plain word :: rest)
    else do
      let value ← o.kind.value word
      read l (g.set o.name value) rest
  | g, .option o attached :: rest => do
    let g ← g.setOption l o attached
    read l g rest

/-- What a command line gives, if it has everything that is required and nothing else. -/
def Layout.read (l : Layout) (words : List String) : Except Refusal Given := do
  let tokens ← l.tokens words
  let g ← Given.read l { expected := l.operands } tokens
  if g.surplus || g.expected.any (·.required) then .error .usage else .ok g

namespace Given

/-- Whether a flag was given. -/
def flag (g : Given) (name : String) : Bool :=
  g.values.any (fun v => v.1 == name)

/-- The text that was given last under a name. -/
def text? (g : Given) (name : String) : Option String :=
  match g.values.lookup name with
  | some (.text t) => some t
  | _ => none

/-- The integer that was given last under a name. -/
def integer? (g : Given) (name : String) : Option Int :=
  match g.values.lookup name with
  | some (.integer n) => some n
  | _ => none

/-- Whether what was given last under a name is blank. -/
def isBlank (g : Given) (name : String) : Bool :=
  g.values.lookup name == some .blank

/-- The text that was given last under a name, or `default` if none was; none if it is blank. -/
def textOr (g : Given) (name default : String) : Option String :=
  if g.isBlank name then none else some ((g.text? name).getD default)

/-- The integer that was given last under a name, or `default` if none was; none if it is blank. -/
def integerOr (g : Given) (name : String) (default : Int) : Option Int :=
  if g.isBlank name then none else some ((g.integer? name).getD default)

end Given

end SourceIndex.CommandLine
