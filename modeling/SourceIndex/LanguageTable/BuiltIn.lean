import SourceIndex.LanguageTable.Basic

/-!
# The tables of the known grammars

One table for each grammar whose trees can be read: Java, Python, JavaScript, TypeScript, and
TypeScript with embedded markup.
-/

namespace SourceIndex.LanguageTable

/-- The table for Java. -/
def java : LanguageTable where
  grammar := "java"
  functions := ["method_declaration", "constructor_declaration"]
  classes :=
    ["class_declaration", "interface_declaration", "enum_declaration", "record_declaration"]
  imports := ["import_declaration"]
  branches :=
    ["if_statement", "for_statement", "enhanced_for_statement", "while_statement", "do_statement",
      "case", "catch_clause", "ternary_expression"]
  parameters := ["formal_parameter", "spread_parameter", "receiver_parameter"]
  modifiers := ["modifiers"]
  returnTypeField := "type"

/-- The table for Python. -/
def python : LanguageTable where
  grammar := "python"
  functions := ["function_definition"]
  classes := ["class_definition"]
  imports := ["import_statement", "import_from_statement", "future_import_statement"]
  branches :=
    ["if_statement", "elif_clause", "for_statement", "while_statement", "case", "except_clause",
      "except_group_clause", "conditional_expression"]
  parameters :=
    ["identifier", "typed_parameter", "default_parameter", "typed_default_parameter",
      "tuple_pattern", "list_splat_pattern", "dictionary_splat_pattern"]
  nameLike := ["identifier", "list_splat_pattern", "dictionary_splat_pattern"]
  returnTypeField := "return_type"
  bodyDelimiter := ":"

/-- The table for JavaScript. -/
def javascript : LanguageTable where
  grammar := "javascript"
  functions :=
    ["function_declaration", "generator_function_declaration", "method_definition",
      "function_expression"]
  classes := ["class_declaration"]
  imports := ["import_statement"]
  branches :=
    ["if_statement", "for_statement", "for_in_statement", "while_statement", "do_statement",
      "case", "catch_clause", "ternary_expression"]
  parameters :=
    ["identifier", "assignment_pattern", "object_pattern", "array_pattern", "rest_pattern"]
  returnTypeField := "return_type"

/-- The table for TypeScript: that of JavaScript, with its own declarations and types. -/
def typescript : LanguageTable :=
  { javascript with
    grammar := "typescript"
    classes :=
      ["class_declaration", "abstract_class_declaration", "interface_declaration",
        "enum_declaration"]
    parameters := javascript.parameters ++ ["required_parameter", "optional_parameter"]
    typeAnnotations := ["type_annotation"]
    modifiers := ["accessibility_modifier"] }

/-- The table for TypeScript with embedded markup. -/
def tsx : LanguageTable :=
  { typescript with grammar := "tsx" }

/-- The tables of all known grammars. -/
def builtIn : List LanguageTable :=
  [java, python, javascript, typescript, tsx]

/-- The table of a grammar, by the grammar's name. -/
def ofGrammar? (grammar : String) : Option LanguageTable :=
  builtIn.find? (fun table => table.grammar == grammar)

end SourceIndex.LanguageTable
