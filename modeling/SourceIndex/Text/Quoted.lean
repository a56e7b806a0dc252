import SourceIndex.Text.Printable

/-!
# Quoted text

A text in quotes, so that its ends and its unprintable characters show.  Single quotes are used
unless the text holds one and no double quote.  The backslash, the quote in use and the line feed,
carriage return and tab have short escapes; other unprintable characters are written by their
code point in hexadecimal, with as few of two, four or eight digits as will do.
-/

namespace SourceIndex.Text

/-- The last `width` hexadecimal digits of `n`, in lower case. -/
def hex : (width : Nat) → Nat → List Char
  | 0, _ => []
  | width + 1, n => hex width (n / 16) ++ [Nat.digitChar (n % 16)]

theorem length_hex (width n : Nat) : (hex width n).length = width := by
  induction width generalizing n with
  | zero => rfl
  | succ width ih => simp [hex, ih]

/-- How an unprintable character is written. -/
def codePoint (c : Char) : List Char :=
  let n := c.toNat
  if n ≤ 0xFF then '\\' :: 'x' :: hex 2 n
  else if n ≤ 0xFFFF then '\\' :: 'u' :: hex 4 n
  else '\\' :: 'U' :: hex 8 n

/-- How a character is written between quotes of the kind `quote`. -/
def quotedChar (quote c : Char) : List Char :=
  if c = quote ∨ c = '\\' then ['\\', c]
  else if c = '\n' then ['\\', 'n']
  else if c = '\r' then ['\\', 'r']
  else if c = '\t' then ['\\', 't']
  else if isPrintable c then [c]
  else codePoint c

/-- The quote a text is written with. -/
def quoteFor (text : List Char) : Char :=
  if text.contains '\'' && !text.contains '"' then '"' else '\''

/-- A text in quotes. -/
def quoted (text : List Char) : List Char :=
  let q := quoteFor text
  q :: text.flatMap (quotedChar q) ++ [q]

/-- A string in quotes. -/
def quote (text : String) : String :=
  String.ofList (quoted text.toList)

end SourceIndex.Text
