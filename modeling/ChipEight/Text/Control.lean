/-!
# Control sequences

Terminals are told to change colors, to move the cursor and the like by control sequences: the escape
character and an opening bracket, then parameters, then intermediate characters, then one final
character. Messages to the user go without them, so that a file's name cannot steer the terminal.
-/

namespace ChipEight.Text

/-- Whether a character's code lies in a range. -/
def inRange (low high : Nat) (c : Char) : Bool := low ≤ c.toNat && c.toNat ≤ high

def escapeCharacter : Char := '\x1b'

/-- The digits, colons and the like that parameters are made of. -/
def isParameter (c : Char) : Bool := inRange 0x30 0x3F c

/-- Blanks and punctuation, which may stand behind the parameters. -/
def isIntermediate (c : Char) : Bool := inRange 0x20 0x2F c

/-- The letters and signs that may end a control sequence. -/
def isFinal (c : Char) : Bool := inRange 0x40 0x7E c

/-- The length of the rest of a control sequence behind its opening bracket, if it is one. -/
def controlTail? (text : List Char) : Option Nat :=
  let parameters := text.takeWhile isParameter
  let rest := text.dropWhile isParameter
  let intermediates := rest.takeWhile isIntermediate
  match rest.dropWhile isIntermediate with
  | c :: _ => if isFinal c then some (parameters.length + intermediates.length + 1) else none
  | [] => none

/-- How many characters of a text are a control sequence at its start. -/
def controlLength (text : List Char) : Nat :=
  match text with
  | c :: '[' :: rest =>
    if c = escapeCharacter then ((controlTail? rest).map (· + 2)).getD 0 else 0
  | _ => 0

/-- A text without its control sequences, of which the first `skip` characters are passed over. -/
def stripFrom : (skip : Nat) → List Char → List Char
  | _, [] => []
  | skip + 1, _ :: rest => stripFrom skip rest
  | 0, c :: rest =>
    match controlLength (c :: rest) with
    | 0 => c :: stripFrom 0 rest
    | length + 1 => stripFrom length rest

def withoutControls (text : String) : String := String.ofList (stripFrom 0 text.toList)

end ChipEight.Text
