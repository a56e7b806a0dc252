/-!
# White space and trimming

The white space of Unicode, together with the four ASCII separators, and the three ways of
removing it from the ends of a text.  A zero width space and a byte order mark are not blank.
-/

namespace SourceIndex.Text

/-- Whether a character is white space. -/
def isBlank (c : Char) : Bool :=
  let n := c.toNat
  (0x09 ≤ n && n ≤ 0x0D) || (0x1C ≤ n && n ≤ 0x20) || n == 0x85 || n == 0xA0 || n == 0x1680 ||
    (0x2000 ≤ n && n ≤ 0x200A) || n == 0x2028 || n == 0x2029 || n == 0x202F || n == 0x205F ||
    n == 0x3000

/-- Removes white space from the front. -/
def trimLeft (text : List Char) : List Char :=
  text.dropWhile isBlank

/-- Removes white space from the end. -/
def trimRight (text : List Char) : List Char :=
  (text.reverse.dropWhile isBlank).reverse

/-- Removes white space from both ends. -/
def trim (text : List Char) : List Char :=
  trimRight (trimLeft text)

@[simp] theorem trimLeft_nil : trimLeft [] = [] := rfl

@[simp] theorem trimRight_nil : trimRight [] = [] := rfl

@[simp] theorem trim_nil : trim [] = [] := rfl

end SourceIndex.Text
