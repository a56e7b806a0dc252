import SourceIndex.Ignore.Glob
import SourceIndex.Text.Blank
import SourceIndex.Text.Quoted

/-!
# Ignore rules

A line of an ignore file is a rule about paths below the directory of the file.  It is a list of
globs with slashes between them, one for each component of a path; a component `**` stands for any
number of components.  A rule with no slash but at its end applies at every depth, a rule with a
slash elsewhere only from the top.  A path is matched also if a directory above it is.

White space at the end of a line, empty lines and lines that begin with `#` say nothing.  A leading
`!` negates a rule.
-/

namespace SourceIndex.Ignore

/-- Which paths a rule is about. -/
inductive Target where
  /-- All paths. -/
  | everything
  /-- All paths in a directory. -/
  | insideDirectory
  /-- The paths that begin with a shape. -/
  | shaped (shape : Shape)
deriving DecidableEq, Repr

/-- Whether a target takes in a path. -/
def Target.covers : Target → List Char → Bool
  | everything, path => path.any (· != '\n')
  | insideDirectory, path => path.contains '/'
  | shaped shape, path => shape.begins path

/-- What a line says. -/
structure Rule where
  /-- Whether the paths that are matched are kept, and not ignored. -/
  negated : Bool
  target : Target
deriving DecidableEq, Repr

/-- Why a line cannot be read as a rule. -/
inductive LineError where
  /-- The line has no meaning. -/
  | invalid
  /-- A bracket expression holds a range whose end comes before its beginning. -/
  | reversedRange
deriving DecidableEq, Repr

/-- What is said of a line without meaning. -/
def invalidMessage (line : String) : String :=
  "Invalid git pattern: " ++ Text.quote line

namespace Rule

/-! ## Components -/

/-- The component that stands for any number of components. -/
def anyDepth : List Char := ['*', '*']

/-- Puts `**` in front of a rule that applies at every depth, and drops the slash that begins any
other. -/
def anchor : List (List Char) → List (List Char)
  | [] :: rest => rest
  | [part] => if part == anyDepth then [part] else [anyDepth, part]
  | [part, []] => if part == anyDepth then [part, []] else [anyDepth, part, []]
  | parts => parts

/-- Makes `**` of an empty component at the end. -/
def openEnd : List (List Char) → List (List Char)
  | [] => []
  | [[]] => [anyDepth]
  | part :: rest => part :: openEnd rest

/-- Makes one of several `**` in a row. -/
def collapse : List (List Char) → List (List Char)
  | [] => []
  | part :: rest =>
    if part == anyDepth && rest.head? == some anyDepth then collapse rest
    else part :: collapse rest

/-- The components of a rule, or nothing if the rule has none. -/
def components? (pattern : List Char) : Option (List (List Char)) :=
  match anchor (pattern.splitOn '/') with
  | [] => none
  | parts => some (collapse (openEnd parts))

/-- Whether a rule ends with a slash. -/
def isDirectoryOnly (pattern : List Char) : Bool :=
  pattern.getLast?.getD '/' == '/'

/-! ## Targets -/

/-- Any characters but the line feed. -/
def anything : CharSet := .allBut '\n'

/-- A slash, if one is needed. -/
def slashIf (needed : Bool) : Shape :=
  if needed then .char '/' else .empty

/-- The shape of one component. -/
def componentShape (part : List Char) : Except GlobFlaw Shape :=
  if part == ['*'] then .ok (.oneOrMore Glob.notSlash) else Glob.shape part

/-- The shape of the components of a rule that are left; `first` tells whether they are all, and
`slash` whether a slash must come before the next. -/
def shapeFrom (first slash : Bool) : List (List Char) → Except GlobFlaw Shape
  | [] => .ok .empty
  | [part] =>
    if part == anyDepth then .ok (.char '/')
    else do
      let shape ← componentShape part
      return .followed (slashIf slash) (.followed shape (.either (.char '/') .ending))
  | part :: rest =>
    if part == anyDepth then
      if first then do
        let after ← shapeFrom false false rest
        return .followed (.optional (.followed (.oneOrMore anything) (.char '/'))) after
      else do
        let after ← shapeFrom false true rest
        return .followed (.optional (.followed (.char '/') (.oneOrMore anything))) after
    else do
      let shape ← componentShape part
      let after ← shapeFrom false true rest
      return .followed (slashIf slash) (.followed shape after)

/-- The target of a rule with the given components. -/
def targetOf (directoryOnly : Bool) (parts : List (List Char)) : Except GlobFlaw Target :=
  if parts == [anyDepth] then .ok (if directoryOnly then .insideDirectory else .everything)
  else if parts == [anyDepth, ['*']] then .ok .everything
  else if parts == [anyDepth, ['*'], anyDepth] then .ok .insideDirectory
  else (shapeFrom true false parts).map .shaped

/-! ## Lines -/

/-- A line without the white space at its end, unless a backslash protects it. -/
def content (line : List Char) : List Char :=
  match line.reverse with
  | ' ' :: '\\' :: _ => line
  | _ => Text.trimRight line

/-- The rule for a pattern; a bracket expression without an end makes it say nothing. -/
def ofPattern (negated : Bool) (pattern : List Char) : Except LineError (Option Rule) :=
  match components? pattern with
  | none => .error .invalid
  | some parts =>
    match targetOf (isDirectoryOnly pattern) parts with
    | .error .unclosed => .ok none
    | .error .danglingEscape => .error .invalid
    | .ok (.shaped shape) =>
      if shape.isOrdered then .ok (some ⟨negated, .shaped shape⟩) else .error .reversedRange
    | .ok target => .ok (some ⟨negated, target⟩)

/-- The rule that a line states, if it states one. -/
def parse (line : String) : Except LineError (Option Rule) :=
  match content line.toList with
  | [] => .ok none
  | '#' :: _ => .ok none
  | ['/'] => .ok none
  | '!' :: pattern => ofPattern true pattern
  | pattern => ofPattern false pattern

end Rule

end SourceIndex.Ignore
