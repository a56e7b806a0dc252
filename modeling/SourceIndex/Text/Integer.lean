import SourceIndex.Text.Blank

/-!
# Reading integers

An integer is read from a text of decimal digits of any script, with an optional sign, white space
around it, and single underscores between its digits.  The ASCII separators, which trimming
removes, do not count as white space here.  More than 4300 digits are refused, and not written
either.
-/

namespace SourceIndex.Text

/-! ## Decimal digits -/

/-- The zeros of the scripts that have decimal digits; each is followed by its digits one to nine. -/
def zeroDigits : List Nat :=
  [ 0x30, 0x660, 0x6F0, 0x7C0, 0x966, 0x9E6, 0xA66, 0xAE6, 0xB66, 0xBE6, 0xC66, 0xCE6, 0xD66,
    0xDE6, 0xE50, 0xED0, 0xF20, 0x1040, 0x1090, 0x17E0, 0x1810, 0x1946, 0x19D0, 0x1A80, 0x1A90,
    0x1B50, 0x1BB0, 0x1C40, 0x1C50, 0xA620, 0xA8D0, 0xA900, 0xA9D0, 0xA9F0, 0xAA50, 0xABF0, 0xFF10,
    0x104A0, 0x10D30, 0x11066, 0x110F0, 0x11136, 0x111D0, 0x112F0, 0x11450, 0x114D0, 0x11650,
    0x116C0, 0x11730, 0x118E0, 0x11950, 0x11C50, 0x11D50, 0x11DA0, 0x16A60, 0x16AC0, 0x16B50,
    0x1D7CE, 0x1D7D8, 0x1D7E2, 0x1D7EC, 0x1D7F6, 0x1E140, 0x1E2F0, 0x1E950, 0x1FBF0 ]

/-- The value of a decimal digit. -/
def digitValue? (c : Char) : Option Nat :=
  (zeroDigits.find? (fun z => z ≤ c.toNat && c.toNat ≤ z + 9)).map (c.toNat - ·)

/-! ## Integers -/

/-- Whether a character may stand around an integer. -/
def surroundsInteger (c : Char) : Bool :=
  isBlank c && !(0x1C ≤ c.toNat && c.toNat ≤ 0x1F)

/-- The most digits an integer may have. -/
def maxDigits : Nat := 4300

/-- Whether an integer has few enough digits to be read and written. -/
def isReadable (n : Int) : Bool := (Nat.toDigits 10 n.natAbs).length ≤ maxDigits

/-- The values of the digits of a text in which single underscores may stand between digits. -/
def digitValues? : List Char → Option (List Nat)
  | [] => none
  | [c] => (digitValue? c).map ([·])
  | c :: '_' :: rest => do return (← digitValue? c) :: (← digitValues? rest)
  | c :: rest => do return (← digitValue? c) :: (← digitValues? rest)

/-- The number that a list of digits stands for. -/
def ofDigits (digits : List Nat) : Nat :=
  digits.foldl (fun n d => n * 10 + d) 0

/-- The natural number that a text of digits stands for. -/
def readNat? (text : List Char) : Option Nat := do
  let digits ← digitValues? text
  if maxDigits < digits.length then none else some (ofDigits digits)

/-- The integer that a text without white space around it stands for. -/
def readSigned? : List Char → Option Int
  | '-' :: rest => (readNat? rest).map (fun n => -(n : Int))
  | '+' :: rest => (readNat? rest).map Int.ofNat
  | text => (readNat? text).map Int.ofNat

/-- The integer that a text stands for. -/
def readInteger? (text : List Char) : Option Int :=
  readSigned? ((text.dropWhile surroundsInteger).reverse.dropWhile surroundsInteger).reverse

end SourceIndex.Text
