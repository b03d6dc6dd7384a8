/-!
# Integers as they are typed

An integer is typed in decimal digits, with a sign in front and single underscores between digits if
one likes, and with blanks around it. The digits of every script count, and so do the blanks of
Unicode once the text is not plain ASCII. More than 4300 digits are neither read nor written.
-/

namespace ChipEight.Text

/-- The zeros of the decimal digits outside of ASCII; the digits 1 to 9 follow each of them. -/
def digitZeros : Array Nat := #[
    0x660, 0x6F0, 0x7C0, 0x966, 0x9E6, 0xA66, 0xAE6, 0xB66, 0xBE6, 0xC66,
    0xCE6, 0xD66, 0xDE6, 0xE50, 0xED0, 0xF20, 0x1040, 0x1090, 0x17E0, 0x1810,
    0x1946, 0x19D0, 0x1A80, 0x1A90, 0x1B50, 0x1BB0, 0x1C40, 0x1C50, 0xA620, 0xA8D0,
    0xA900, 0xA9D0, 0xA9F0, 0xAA50, 0xABF0, 0xFF10, 0x104A0, 0x10D30, 0x11066, 0x110F0,
    0x11136, 0x111D0, 0x112F0, 0x11450, 0x114D0, 0x11650, 0x116C0, 0x11730, 0x118E0, 0x11950,
    0x11C50, 0x11D50, 0x11DA0, 0x16A60, 0x16AC0, 0x16B50, 0x1D7CE, 0x1D7D8, 0x1D7E2, 0x1D7EC,
    0x1D7F6, 0x1E140, 0x1E2F0, 0x1E950, 0x1FBF0 ]

/-- The value of a decimal digit of any script. -/
def digitValue? (c : Char) : Option Nat :=
  if c.isDigit then some (c.toNat - '0'.toNat)
  else (digitZeros.find? fun z => z ≤ c.toNat && c.toNat < z + 10).map (c.toNat - ·)

/-- Blanks of ASCII. -/
def isAsciiBlank (c : Char) : Bool := c = ' ' || (9 ≤ c.toNat && c.toNat ≤ 13)

/-- Blanks outside of ASCII. -/
def isWideBlank (c : Char) : Bool :=
  [0x85, 0xA0, 0x1680, 0x2028, 0x2029, 0x202F, 0x205F, 0x3000].contains c.toNat ||
    (0x2000 ≤ c.toNat && c.toNat ≤ 0x200A)

def isBlank (c : Char) : Bool := isAsciiBlank c || isWideBlank c

/-- A text without the blanks at its two ends. -/
def trimBlanks (text : List Char) : List Char :=
  ((text.dropWhile isBlank).reverse.dropWhile isBlank).reverse

/-- The values of digits with single underscores between them, or nothing if the text is anything
else. A digit has to come next where `needDigit` holds. -/
def digitsOf? (needDigit : Bool) : List Char → Option (List Nat)
  | [] => if needDigit then none else some []
  | c :: rest =>
    if c = '_' then
      if needDigit then none else digitsOf? true rest
    else
      match digitValue? c with
      | some d => (digitsOf? false rest).map (d :: ·)
      | none => none

/-- The longest number that is read or written, in digits. -/
def maxDigits : Nat := 4300

/-- Whether a number can be written. -/
def writable (n : Int) : Bool := n.natAbs < Nat.pow 10 maxDigits

/-- What is said of a number that cannot be written. -/
def digitsMessage : String :=
  "Exceeds the limit (" ++ toString maxDigits ++
    " digits) for integer string conversion; use sys.set_int_max_str_digits() to increase the limit"

/-- The number that digits stand for, or nothing if there are none or too many. -/
def natural? (text : List Char) : Option Nat :=
  match digitsOf? true text with
  | some ds => if ds.length ≤ maxDigits then some (ds.foldl (fun n d => 10 * n + d) 0) else none
  | none => none

def integer? (text : String) : Option Int :=
  match trimBlanks text.toList with
  | '-' :: rest => (natural? rest).map fun n => -(n : Int)
  | '+' :: rest => (natural? rest).map fun n => (n : Int)
  | other => (natural? other).map fun n => (n : Int)

end ChipEight.Text
