/-!
# Instructions

An instruction word has 16 bits. `Instruction` is what a word can mean, with its operands taken
apart, and `Instruction.table` lists the accepted words as patterns of fixed bits. Decoding takes the
first entry that matches; no word matches two of them, so the order of the table is of no
consequence.
-/

namespace ChipEight

/-- The meanings of an instruction word. Registers are numbers below 16, `byte` is below 256 and
`address` below 4096. -/
inductive Instruction
  /-- Darken the whole screen. -/
  | clear
  /-- Return from a subroutine. -/
  | ret
  | jump (address : Nat)
  | call (address : Nat)
  | skipIfByte (x byte : Nat)
  | skipUnlessByte (x byte : Nat)
  | skipIfSame (x y : Nat)
  | setByte (x byte : Nat)
  | addByte (x byte : Nat)
  | copy (x y : Nat)
  | or (x y : Nat)
  | and (x y : Nat)
  | xor (x y : Nat)
  | add (x y : Nat)
  /-- Subtract register `y` from register `x`. -/
  | sub (x y : Nat)
  | shiftRight (x : Nat)
  /-- Put register `y` less register `x` into register `x`. -/
  | subFrom (x y : Nat)
  | shiftLeft (x : Nat)
  | skipUnlessSame (x y : Nat)
  | setIndex (address : Nat)
  /-- Jump to `address` plus register 0. -/
  | jumpOffset (address : Nat)
  /-- Take a random byte, with only the bits of `byte` kept. -/
  | random (x byte : Nat)
  /-- Draw `rows` sprite rows at the point held by registers `x` and `y`. -/
  | draw (x y rows : Nat)
  | skipIfDown (x : Nat)
  | skipUnlessDown (x : Nat)
  | readDelay (x : Nat)
  /-- Wait until a key is down. -/
  | awaitKey (x : Nat)
  | setDelay (x : Nat)
  | setSound (x : Nat)
  | addToIndex (x : Nat)
  /-- Point the index at the glyph of the digit in register `x`. -/
  | glyph (x : Nat)
  /-- Write the three decimal digits of register `x` to memory. -/
  | digits (x : Nat)
  /-- Write registers 0 to `x` to memory. -/
  | store (x : Nat)
  /-- Read registers 0 to `x` from memory. -/
  | load (x : Nat)
  deriving DecidableEq

/-! ## The operands of a word -/

namespace Word

/-- The second hexadecimal digit, which names a register. -/
def x (word : Nat) : Nat := (word >>> 8) &&& 0xF

/-- The third hexadecimal digit, which names a register. -/
def y (word : Nat) : Nat := (word >>> 4) &&& 0xF

/-- The last hexadecimal digit. -/
def nibble (word : Nat) : Nat := word &&& 0xF

/-- The last two hexadecimal digits. -/
def byte (word : Nat) : Nat := word &&& 0xFF

/-- The last three hexadecimal digits. -/
def address (word : Nat) : Nat := word &&& 0xFFF

end Word

/-! ## Decoding -/

/-- The words whose bits under `mask` are `pattern`, and what such a word means. -/
structure Encoding where
  mask : Nat
  pattern : Nat
  meaning : Nat → Instruction

namespace Encoding

/-- Whether a word is one of this entry's words. -/
def accepts (encoding : Encoding) (word : Nat) : Bool := word &&& encoding.mask == encoding.pattern

/-- The meaning of a word by the first entry that accepts it. -/
def decode (table : List Encoding) (word : Nat) : Option Instruction :=
  (table.find? (·.accepts word)).map (·.meaning word)

end Encoding

namespace Instruction

open Word

def table : List Encoding :=
  [ ⟨0xFFFF, 0x00E0, fun _ => clear⟩,
    ⟨0xFFFF, 0x00EE, fun _ => ret⟩,
    ⟨0xF000, 0x1000, fun w => jump (address w)⟩,
    ⟨0xF000, 0x2000, fun w => call (address w)⟩,
    ⟨0xF000, 0x3000, fun w => skipIfByte (x w) (byte w)⟩,
    ⟨0xF000, 0x4000, fun w => skipUnlessByte (x w) (byte w)⟩,
    ⟨0xF00F, 0x5000, fun w => skipIfSame (x w) (y w)⟩,
    ⟨0xF000, 0x6000, fun w => setByte (x w) (byte w)⟩,
    ⟨0xF000, 0x7000, fun w => addByte (x w) (byte w)⟩,
    ⟨0xF00F, 0x8000, fun w => copy (x w) (y w)⟩,
    ⟨0xF00F, 0x8001, fun w => or (x w) (y w)⟩,
    ⟨0xF00F, 0x8002, fun w => and (x w) (y w)⟩,
    ⟨0xF00F, 0x8003, fun w => xor (x w) (y w)⟩,
    ⟨0xF00F, 0x8004, fun w => add (x w) (y w)⟩,
    ⟨0xF00F, 0x8005, fun w => sub (x w) (y w)⟩,
    ⟨0xF00F, 0x8006, fun w => shiftRight (x w)⟩,
    ⟨0xF00F, 0x8007, fun w => subFrom (x w) (y w)⟩,
    ⟨0xF00F, 0x800E, fun w => shiftLeft (x w)⟩,
    ⟨0xF00F, 0x9000, fun w => skipUnlessSame (x w) (y w)⟩,
    ⟨0xF000, 0xA000, fun w => setIndex (address w)⟩,
    ⟨0xF000, 0xB000, fun w => jumpOffset (address w)⟩,
    ⟨0xF000, 0xC000, fun w => random (x w) (byte w)⟩,
    ⟨0xF000, 0xD000, fun w => draw (x w) (y w) (nibble w)⟩,
    ⟨0xF0FF, 0xE09E, fun w => skipIfDown (x w)⟩,
    ⟨0xF0FF, 0xE0A1, fun w => skipUnlessDown (x w)⟩,
    ⟨0xF0FF, 0xF007, fun w => readDelay (x w)⟩,
    ⟨0xF0FF, 0xF00A, fun w => awaitKey (x w)⟩,
    ⟨0xF0FF, 0xF015, fun w => setDelay (x w)⟩,
    ⟨0xF0FF, 0xF018, fun w => setSound (x w)⟩,
    ⟨0xF0FF, 0xF01E, fun w => addToIndex (x w)⟩,
    ⟨0xF0FF, 0xF029, fun w => glyph (x w)⟩,
    ⟨0xF0FF, 0xF033, fun w => digits (x w)⟩,
    ⟨0xF0FF, 0xF055, fun w => store (x w)⟩,
    ⟨0xF0FF, 0xF065, fun w => load (x w)⟩ ]

end Instruction

end ChipEight
