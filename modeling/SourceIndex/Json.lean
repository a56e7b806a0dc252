import SourceIndex.Text.Decimal
import SourceIndex.Text.Quoted

/-!
# JSON text

Values are written over several lines, two spaces for each level, one element or field to a line.
All but the printable characters of ASCII is escaped; a character past the basic plane becomes a pair
of surrogates.  A field keeps its place, and empty arrays and objects stay on their line.
-/

namespace SourceIndex

/-- A JSON value; the fields of an object are in order. -/
inductive Json where
  | null
  | int (n : Int)
  | str (text : String)
  | arr (items : List Json)
  | obj (fields : List (String × Json))

namespace Json

/-! ## Strings -/

/-- One unit of sixteen bits, escaped. -/
def unit (n : Nat) : List Char :=
  '\\' :: 'u' :: Text.hex 4 n

/-- How a character is written in a string. -/
def escape (c : Char) : List Char :=
  if c = '"' then ['\\', '"']
  else if c = '\\' then ['\\', '\\']
  else if c = '\n' then ['\\', 'n']
  else if c = '\r' then ['\\', 'r']
  else if c = '\t' then ['\\', 't']
  else if c = '\x08' then ['\\', 'b']
  else if c = '\x0c' then ['\\', 'f']
  else if 0x20 ≤ c.toNat ∧ c.toNat < 0x7F then [c]
  else if c.toNat < 0x10000 then unit c.toNat
  else
    unit (0xD800 + (c.toNat - 0x10000) / 0x400) ++ unit (0xDC00 + (c.toNat - 0x10000) % 0x400)

/-- A string in its quotes. -/
def string (text : String) : List Char :=
  '"' :: text.toList.flatMap escape ++ ['"']

/-! ## Values -/

/-- The start of a line at a level. -/
def newline (level : Nat) : List Char :=
  '\n' :: List.replicate (2 * level) ' '

mutual

/-- A value whose first line begins at the given level. -/
def render (level : Nat) : Json → List Char
  | null => "null".toList
  | int n => Text.decimal n
  | str text => string text
  | arr [] => "[]".toList
  | arr (item :: items) =>
    '[' :: newline (level + 1) ++ render (level + 1) item ++ renderItems (level + 1) items
      ++ newline level ++ [']']
  | obj [] => "\x7b\x7d".toList
  | obj (field :: fields) =>
    '\x7b' :: newline (level + 1) ++ renderField (level + 1) field
      ++ renderFields (level + 1) fields ++ newline level ++ ['\x7d']

/-- The further items of an array. -/
def renderItems (level : Nat) : List Json → List Char
  | [] => []
  | item :: items => ',' :: newline level ++ render level item ++ renderItems level items

/-- A field of an object. -/
def renderField (level : Nat) : String × Json → List Char
  | (name, value) => string name ++ ':' :: ' ' :: render level value

/-- The further fields of an object. -/
def renderFields (level : Nat) : List (String × Json) → List Char
  | [] => []
  | field :: fields =>
    ',' :: newline level ++ renderField level field ++ renderFields level fields

end

/-- A value as text. -/
def pretty (value : Json) : String :=
  String.ofList (render 0 value)

end Json

end SourceIndex
