/-!
# Lines

A text is read line by line. A line ends at any of the characters that break lines in Unicode; a
carriage return and the line feed behind it are one break. What follows the last break is a line only
if there is something.
-/

namespace ChipEight.Text

def isLineBreak (c : Char) : Bool :=
  (0xA ≤ c.toNat && c.toNat ≤ 0xD) || (0x1C ≤ c.toNat && c.toNat ≤ 0x1E) ||
    [0x85, 0x2028, 0x2029].contains c.toNat

/-- The lines of a text, where `line` holds what the first one has so far, its last character
first. -/
def linesFrom (line : List Char) : List Char → List (List Char)
  | [] => if line.isEmpty then [] else [line.reverse]
  | '\r' :: '\n' :: rest => line.reverse :: linesFrom [] rest
  | c :: rest =>
    if isLineBreak c then line.reverse :: linesFrom [] rest else linesFrom (c :: line) rest

def lines (text : String) : List String := (linesFrom [] text.toList).map String.ofList

/-- Texts as they are written one below the other, each with a line feed behind it. -/
def written (texts : List String) : String := String.join (texts.map (· ++ "\n"))

def writtenLines (texts : List String) : List String := lines (written texts)

/-- Every carriage return with a line feed behind it left out. -/
def withoutReturns : List Char → List Char
  | [] => []
  | '\r' :: '\n' :: rest => '\n' :: withoutReturns rest
  | c :: rest => c :: withoutReturns rest

/-- The lines of written texts for a reader who gets a line feed in place of a carriage return and a
line feed. A carriage return in front of the two ends no line of its own then. -/
def convertedLines (texts : List String) : List String :=
  lines (String.ofList (withoutReturns (written texts).toList))

end ChipEight.Text
