import ChipEight.Text.Hex
import ChipEight.Text.Printable

/-!
# Quoted text

Names in messages stand in quotes: single ones, unless the name holds a single quote and no double
one. The backslash and the quote in use are escaped, and so is every character that does not print,
by its code in two, four or eight hexadecimal digits.
-/

namespace ChipEight.Text

/-- The quote that a text is put in. -/
def quoteFor (text : String) : Char :=
  if text.toList.contains '\'' && !text.toList.contains '"' then '"' else '\''

/-- The code of a character in `width` small hexadecimal digits. -/
def codeText (width : Nat) (c : Char) : String :=
  zeroFill width (String.ofList (Nat.toDigits 16 c.toNat))

/-- A character as it stands between two quotes. -/
def escape (quote c : Char) : String :=
  if c = quote || c = '\\' then "\\" ++ c.toString
  else if c = '\n' then "\\n"
  else if c = '\r' then "\\r"
  else if c = '\t' then "\\t"
  else if isPrintable c then c.toString
  else if c.toNat < 0x100 then "\\x" ++ codeText 2 c
  else if c.toNat < 0x10000 then "\\u" ++ codeText 4 c
  else "\\U" ++ codeText 8 c

def quoted (text : String) : String :=
  let quote := quoteFor text
  quote.toString ++ String.join (text.toList.map (escape quote)) ++ quote.toString

end ChipEight.Text
