/-!
# The keys of a computer keyboard

Sixteen keys in the left half of the keyboard stand for the sixteen keys of the keypad, which has its
1 2 3 C in the row of the digits and its A 0 B F in the lowest row. Two more keys work the window.
-/

namespace ChipEight

/-- A key of the computer's keyboard, by its name. -/
abbrev KeySymbol := String

namespace KeySymbol

/-- The keypad key of each keyboard key that has one. -/
def keypad : List (KeySymbol × Nat) :=
  [ ("_1", 0x1), ("_2", 0x2), ("_3", 0x3), ("_4", 0xC),
    ("Q", 0x4), ("W", 0x5), ("E", 0x6), ("R", 0xD),
    ("A", 0x7), ("S", 0x8), ("D", 0x9), ("F", 0xE),
    ("Z", 0xA), ("X", 0x0), ("C", 0xB), ("V", 0xF) ]

/-- The keypad key that a keyboard key stands for, if it stands for one. -/
def keypad? (symbol : KeySymbol) : Option Nat := keypad.lookup symbol

def escape : KeySymbol := "ESCAPE"

/-- The key that turns the debugging log on and off. -/
def logToggle : KeySymbol := "F1"

end KeySymbol

end ChipEight
