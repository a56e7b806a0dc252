/-!
# Lines of a text

A line ends at any of the line boundaries of Unicode, and a carriage return followed by a line
feed is one boundary.  A boundary at the very end opens no further line, so the empty text has
no lines.
-/

namespace SourceIndex.Text

/-- Whether a character ends a line. -/
def endsLine (c : Char) : Bool :=
  let n := c.toNat
  (0x0A ≤ n && n ≤ 0x0D) || (0x1C ≤ n && n ≤ 0x1E) || n == 0x85 || n == 0x2028 || n == 0x2029

/-- The lines of a text whose first line begins with `seen`, in reverse. -/
def linesFrom (seen : List Char) : List Char → List (List Char)
  | [] => if seen.isEmpty then [] else [seen.reverse]
  | '\r' :: '\n' :: rest => seen.reverse :: linesFrom [] rest
  | c :: rest => if endsLine c then seen.reverse :: linesFrom [] rest else linesFrom (c :: seen) rest

/-- The lines of a text, without what ends them. -/
def lines (text : List Char) : List (List Char) :=
  linesFrom [] text

@[simp] theorem lines_nil : lines [] = [] := rfl

end SourceIndex.Text
