/-!
# Hexadecimal numbers

Numbers are written with the digits 0 to F and filled up with zeros on the left to a width; the minus
sign of a negative number counts towards the width.
-/

namespace ChipEight.Text

/-- The digits of a number in base 16, with capital letters. -/
def hexDigits (n : Nat) : String := (String.ofList (Nat.toDigits 16 n)).toUpper

/-- A text filled up with zeros on the left. -/
def zeroFill (width : Nat) (text : String) : String :=
  String.ofList (List.replicate (width - text.length) '0') ++ text

/-- A number in base 16 with at least `width` characters. -/
def hex (width : Nat) (n : Int) : String :=
  if n < 0 then "-" ++ zeroFill (width - 1) (hexDigits n.natAbs)
  else zeroFill width (hexDigits n.natAbs)

end ChipEight.Text
