/-!
# Outlines

The outline of a source file: its functions, the names of its classes, and its import statements,
each in the order of the source.
-/

namespace SourceIndex

/-- A parameter of a function. -/
structure Param where
  /-- The declared type. -/
  type : String
  /-- The parameter's name. -/
  name : String
deriving DecidableEq, Repr

/-- What an outline says of a function. -/
structure FunctionInfo where
  name : String
  /-- The declaration up to the body. -/
  signature : String
  params : List Param
  /-- The declared return type. -/
  returnType : String
  /-- The first line, counted from one. -/
  lineStart : Int
  /-- The last line, counted from one. -/
  lineEnd : Int
  visibility : String
  /-- One more than the number of branching constructs. -/
  complexity : Int
deriving DecidableEq, Repr

/-- Whether a line belongs to a function. -/
def FunctionInfo.containsLine (f : FunctionInfo) (line : Int) : Bool :=
  f.lineStart ≤ line && line ≤ f.lineEnd

/-- What was found in one source file. -/
structure Outline where
  fileName : String
  language : String
  functions : List FunctionInfo := []
  classes : List String := []
  imports : List String := []
deriving DecidableEq, Repr

/-- The first function that a line belongs to; as functions stand in pre-order, this is an outermost
one. -/
def Outline.enclosing? (o : Outline) (line : Int) : Option FunctionInfo :=
  o.functions.find? (·.containsLine line)

end SourceIndex
