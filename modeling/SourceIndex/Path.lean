import SourceIndex.Text.Decimal

/-!
# Paths

A path is read component by component: repeated slashes and components `.` say nothing and are
dropped, while `..` is kept until the path is resolved.  A location is a resolved path: the
components from the root down, none of them `.` or `..`.
-/

namespace SourceIndex

/-- A path as it was given, absolute or relative. -/
structure Path where
  absolute : Bool
  parts : List String
deriving DecidableEq, Repr

/-- The components of a place in the file system, from the root down. -/
abbrev Location := List String

namespace Path

/-- Whether a component says something. -/
def isPart (part : List Char) : Bool :=
  !(part.isEmpty || part == ['.'])

/-- The components of a text. -/
def components (text : List Char) : List String :=
  ((text.splitOn '/').filter isPart).map String.ofList

/-- The path that a text stands for. -/
def parse (text : String) : Path where
  absolute := text.toList.head? == some '/'
  parts := components text.toList

/-- The components with slashes between them. -/
def joined (parts : List String) : List Char :=
  List.intercalate ['/'] (parts.map String.toList)

/-- A path as text. -/
def text (p : Path) : String :=
  if p.absolute then String.ofList ('/' :: joined p.parts)
  else if p.parts.isEmpty then "."
  else String.ofList (joined p.parts)

/-- The last component; empty if there is none. -/
def name (p : Path) : String :=
  p.parts.getLast?.getD ""

/-- Whether a component holds a null character; no file has such a path. -/
def holdsNull (p : Path) : Bool :=
  p.parts.any (fun part => part.toList.contains '\x00')

/-- The part of a name from its last dot on, unless that dot comes first or last. -/
def suffixOf (name : List Char) : List Char :=
  let extension := (name.reverse.takeWhile (· != '.')).reverse
  match name.reverse.dropWhile (· != '.') with
  | '.' :: stem => if stem.isEmpty || extension.isEmpty then [] else '.' :: extension
  | _ => []

/-- The suffix of the last component. -/
def suffix (p : Path) : String :=
  String.ofList (suffixOf p.name.toList)

/-! ## Resolving -/

/-- Goes one component further from a location. -/
def step (here : Location) (part : String) : Location :=
  if part == ".." then here.dropLast else here ++ [part]

/-- The location that a path starts from, seen from the directory `base`. -/
def start (base : Location) (p : Path) : Location :=
  if p.absolute then [] else base

/-- The location of a path, seen from the directory `base`. -/
def resolve (base : Location) (p : Path) : Location :=
  p.parts.foldl step (p.start base)

/-- The locations that components pass through before the last. -/
def passed (here : Location) : List String → List Location
  | [] => []
  | [_] => []
  | part :: rest => step here part :: passed (step here part) rest

end Path

/-- The absolute path to a location. -/
def Location.path (here : Location) : Path := ⟨true, here⟩

/-- A location as text. -/
def Location.text (here : Location) : String := here.path.text

/-- Whether a location comes no later than another: locations are compared component by component,
and a directory comes before what is in it. -/
def Location.precedes : Location → Location → Bool
  | [], _ => true
  | _ :: _, [] => false
  | a :: here, b :: there => if a = b then precedes here there else decide (a < b)

/-! ## Languages -/

/-- The languages by the suffix of their files. -/
def languageSuffixes : List (String × String) :=
  [ (".java", "java"),
    (".py", "python"),
    (".pyi", "python"),
    (".js", "javascript"),
    (".mjs", "javascript"),
    (".cjs", "javascript"),
    (".jsx", "javascriptreact"),
    (".ts", "typescript"),
    (".mts", "typescript"),
    (".cts", "typescript"),
    (".tsx", "typescriptreact") ]

/-- The language of a file, by its suffix alone.  Case does not matter; as no character outside ASCII
has one of the letters of a suffix for its lower case, only ASCII letters are lowered. -/
def Path.language? (p : Path) : Option String :=
  languageSuffixes.lookup (String.ofList (p.suffix.toList.map Char.toLower))

end SourceIndex
