/-!
# Integers in decimal

Integers are written in base ten, with a minus sign and no leading zeros, and columns of text are
filled up with spaces.  Widths count code points.
-/

namespace SourceIndex.Text

/-- The decimal form of an integer. -/
def decimal (n : Int) : List Char :=
  if n < 0 then '-' :: Nat.toDigits 10 n.natAbs else Nat.toDigits 10 n.natAbs

/-- The decimal form of an integer, as a string. -/
def number (n : Int) : String :=
  String.ofList (decimal n)

/-- Fills a text up to `width` with spaces behind it. -/
def padRight (width : Nat) (text : String) : String :=
  text ++ String.ofList (List.replicate (width - text.length) ' ')

/-- Fills a text up to `width` with spaces before it. -/
def padLeft (width : Nat) (text : String) : String :=
  String.ofList (List.replicate (width - text.length) ' ') ++ text

/-- Writes the parts one after another with `separator` between them. -/
def joinWith (separator : String) : List String → String
  | [] => ""
  | [part] => part
  | part :: rest => part ++ separator ++ joinWith separator rest

end SourceIndex.Text
