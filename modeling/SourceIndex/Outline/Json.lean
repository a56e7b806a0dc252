import SourceIndex.Analyzer
import SourceIndex.Json

/-!
# Outlines as JSON

The JSON form of outlines and their parts.
-/

namespace SourceIndex

/-- The JSON form of a parameter. -/
def Param.toJson (p : Param) : Json :=
  .obj [("type", .str p.type), ("name", .str p.name)]

/-- The JSON form of a function. -/
def FunctionInfo.toJson (f : FunctionInfo) : Json :=
  .obj [
    ("name", .str f.name),
    ("signature", .str f.signature),
    ("params", .arr (f.params.map Param.toJson)),
    ("returnType", .str f.returnType),
    ("lineStart", .int f.lineStart),
    ("lineEnd", .int f.lineEnd),
    ("visibility", .str f.visibility),
    ("complexity", .int f.complexity)]

/-- The JSON form of an outline. -/
def Outline.toJson (o : Outline) : Json :=
  .obj [
    ("fileName", .str o.fileName),
    ("language", .str o.language),
    ("functions", .arr (o.functions.map FunctionInfo.toJson)),
    ("classes", .arr (o.classes.map Json.str)),
    ("imports", .arr (o.imports.map Json.str))]

/-- The JSON form of what is known of a line. -/
def Enclosing.toJson (e : Enclosing) : Json :=
  .obj [
    ("function", (e.function.map FunctionInfo.toJson).getD .null),
    ("fileAnalysis", e.outline.toJson)]

end SourceIndex
