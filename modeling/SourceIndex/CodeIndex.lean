import SourceIndex.Data.OrderedMap
import SourceIndex.Outline.Json

/-!
# The index of a code base

The outlines of many files by their paths, with running totals.  A file that is added anew goes to
the end, whether it was there before or not.
-/

namespace SourceIndex

/-- Outlines by path, and how many functions and classes they hold in all. -/
structure CodeIndex where
  files : OrderedMap String Outline
  totalFunctions : Int
  totalClasses : Int

namespace CodeIndex

/-- The index without files. -/
def empty : CodeIndex := ⟨OrderedMap.empty, 0, 0⟩

instance : Inhabited CodeIndex := ⟨empty⟩

/-- How many files there are. -/
def size (x : CodeIndex) : Nat := x.files.size

/-- The outline of a file. -/
def get? (x : CodeIndex) (path : String) : Option Outline := x.files.get? path

/-- Takes a file out: the outline that was there under its path, and the index without it. -/
def pop (x : CodeIndex) (path : String) : Option Outline × CodeIndex :=
  match x.files.get? path with
  | none => (none, x)
  | some old =>
    (some old,
      { files := x.files.erase path
        totalFunctions := x.totalFunctions - old.functions.length
        totalClasses := x.totalClasses - old.classes.length })

/-- Removes a file. -/
def remove (x : CodeIndex) (path : String) : CodeIndex := (x.pop path).2

/-- Adds a file at the end, in place of what was there under its path. -/
def add (x : CodeIndex) (path : String) (o : Outline) : CodeIndex :=
  let x := x.remove path
  { files := x.files.insert path o
    totalFunctions := x.totalFunctions + o.functions.length
    totalClasses := x.totalClasses + o.classes.length }

/-! ## Looking functions up -/

/-- Every function with the path of its file, file by file. -/
def functions (x : CodeIndex) : List (String × FunctionInfo) :=
  x.files.entries.flatMap (fun e => e.2.functions.map (e.1, ·))

/-- The functions with a given name. -/
def locations (x : CodeIndex) (name : String) : List (String × FunctionInfo) :=
  x.functions.filter (fun f => f.2.name == name)

/-- The first file that has a function with a given name. -/
def owner? (x : CodeIndex) (name : String) : Option Outline :=
  x.files.values.find? (fun o => o.functions.any (fun f => f.name == name))

/-- The function of a file that a line belongs to. -/
def enclosing? (x : CodeIndex) (path : String) (line : Int) : Option FunctionInfo :=
  (x.get? path).bind (·.enclosing? line)

/-- Every function with the path of its file, the most complex first; functions of equal complexity
keep their order. -/
def ranking (x : CodeIndex) : List (String × FunctionInfo) :=
  x.functions.mergeSort (fun f g => decide (g.2.complexity ≤ f.2.complexity))

/-- The JSON form of an index. -/
def toJson (x : CodeIndex) : Json :=
  .obj [
    ("files", .obj (x.files.entries.map (fun e => (e.1, e.2.toJson)))),
    ("totalFunctions", .int x.totalFunctions),
    ("totalClasses", .int x.totalClasses)]

end CodeIndex

end SourceIndex
