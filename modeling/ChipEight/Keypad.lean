import ChipEight.Bank

/-!
# The keypad

Sixteen keys, numbered 0 to F, each up or down. A keyboard reports key numbers as arbitrary integers;
only the residue modulo 16 says which key is meant.
-/

namespace ChipEight

/-- Which of the sixteen keys are down. -/
structure Keypad where
  down : Bank Bool
  deriving DecidableEq

namespace Keypad

def size : Nat := 16

def released : Keypad := ⟨Bank.replicate size false⟩

/-- The key that an integer stands for: its residue modulo 16. -/
def key (number : Int) : Nat := (number % size).toNat

def press (keypad : Keypad) (number : Int) : Keypad := ⟨keypad.down.write (key number) true⟩

def release (keypad : Keypad) (number : Int) : Keypad := ⟨keypad.down.write (key number) false⟩

/-- Exactly the reported keys down. -/
def ofReport (numbers : List Int) : Keypad := numbers.foldl press released

def isDown (keypad : Keypad) (k : Nat) : Bool := keypad.down.read k

/-- The lowest key that is down, if any is. -/
def lowest (keypad : Keypad) : Option Nat := (List.range size).find? keypad.isDown

end Keypad

end ChipEight
