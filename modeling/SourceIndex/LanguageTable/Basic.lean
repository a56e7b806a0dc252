/-!
# Node kinds and what they stand for

Every grammar names its nodes in its own way.  A language table sorts the node kinds of one grammar
into a few categories, so that everything that reads trees is written once for all languages.

A kind may be listed under several categories.  `isA` asks for one of them; `category?` gives the
first in the order of precedence, which is the order of `Category.all`.
-/

namespace SourceIndex

/-- What a node kind can stand for. -/
inductive Category where
  | function
  | classDecl
  | importDecl
  | branch
  | parameter
  | annotatedType
  | visibility
deriving DecidableEq, Repr

/-- All categories; where a kind belongs to several, the earlier wins. -/
def Category.all : List Category :=
  [.function, .classDecl, .importDecl, .branch, .parameter, .annotatedType, .visibility]

theorem Category.mem_all (c : Category) : c ∈ Category.all := by
  cases c <;> decide

/-- The name of a category. -/
def Category.name : Category → String
  | .function => "function"
  | .classDecl => "class"
  | .importDecl => "import"
  | .branch => "branch"
  | .parameter => "parameter"
  | .annotatedType => "type"
  | .visibility => "visibility"

/-- What the node kinds of one grammar stand for. -/
structure LanguageTable where
  /-- The grammar whose nodes the table sorts. -/
  grammar : String
  /-- Kinds of function declarations. -/
  functions : List String := []
  /-- Kinds of class declarations. -/
  classes : List String := []
  /-- Kinds of import statements. -/
  imports : List String := []
  /-- Kinds of branching constructs. -/
  branches : List String := []
  /-- Kinds of parameters. -/
  parameters : List String := []
  /-- Kinds of type annotations, whose text begins with a colon. -/
  typeAnnotations : List String := []
  /-- Kinds of modifiers, whose text may hold a visibility. -/
  modifiers : List String := []
  /-- Kinds of parameters, and of their children, whose own text is the parameter's name. -/
  nameLike : List String := ["identifier"]
  /-- The field of a function that holds its return type. -/
  returnTypeField : String := "type"
  /-- What divides a declaration from its body. -/
  bodyDelimiter : String := "\x7b"
deriving DecidableEq, Repr

namespace LanguageTable

/-- The kinds listed under a category. -/
def kinds (table : LanguageTable) : Category → List String
  | .function => table.functions
  | .classDecl => table.classes
  | .importDecl => table.imports
  | .branch => table.branches
  | .parameter => table.parameters
  | .annotatedType => table.typeAnnotations
  | .visibility => table.modifiers

/-- Whether a kind is listed under a category. -/
def isA (table : LanguageTable) (kind : String) (category : Category) : Bool :=
  (table.kinds category).contains kind

/-- All listed kinds with their categories, the categories in order of precedence. -/
def rows (table : LanguageTable) : List (String × Category) :=
  Category.all.flatMap (fun c => (table.kinds c).map (·, c))

/-- The category of a kind: that of its first row. -/
def category? (table : LanguageTable) (kind : String) : Option Category :=
  table.rows.lookup kind

theorem lookup_kinds (kinds : List String) (category : Category) (kind : String) :
    (kinds.map (·, category)).lookup kind = if kinds.contains kind then some category else none := by
  induction kinds with
  | nil => rfl
  | cons first rest ih =>
    rw [List.map_cons, List.lookup_cons, ih, List.contains_cons]
    cases kind == first <;> simp

/-- The category of a kind is the first, in the order of precedence, that the kind is listed
under. -/
theorem category?_eq_find? (table : LanguageTable) (kind : String) :
    table.category? kind = Category.all.find? (table.isA kind) := by
  unfold category? rows
  generalize Category.all = categories
  induction categories with
  | nil => rfl
  | cons category rest ih =>
    rw [List.flatMap_cons, List.lookup_append, lookup_kinds, ih, List.find?_cons, isA]
    cases (table.kinds category).contains kind <;> simp

end LanguageTable

end SourceIndex
