import ChipEight.Bank

/-!
# Memory

The 4096 bytes of a CHIP-8: the glyphs of the hexadecimal digits at the bottom, then programs from
`0x200` on. Addresses count modulo the size of memory (`wrap`), so that a run of bytes that starts
near the top goes on at address 0.
-/

namespace ChipEight

/-- A program image: the bytes that are copied to `Memory.programStart`. -/
abbrev Rom := List UInt8

/-- The bytes of memory by address. -/
abbrev Memory := Bank Nat

namespace Memory

def capacity : Nat := 4096

/-- The address of a program's first byte. -/
def programStart : Nat := 0x200

/-- The longest program that fits between `programStart` and the top of memory. -/
def programCapacity : Nat := capacity - programStart

/-- An address counted modulo the size of memory. -/
def wrap (address : Nat) : Nat := address % capacity

/-- The address two bytes on, where the next instruction lies. -/
def next (address : Nat) : Nat := wrap (address + 2)

/-- The address two bytes back, where the previous instruction lies. -/
def previous (address : Nat) : Nat := wrap (address + (capacity - 2))

/-- The addresses of the `count` bytes from `start` on. -/
def window (start count : Nat) : List Nat := (List.range count).map fun j => wrap (start + j)

/-- The two bytes at an address as one word, the first byte on top. -/
def word (memory : Memory) (address : Nat) : Nat :=
  (memory.read address <<< 8) ||| memory.read (wrap (address + 1))

/-- The `count` bytes from `start` on. -/
def bytes (memory : Memory) (start count : Nat) : List Nat :=
  (window start count).map memory.read

def install (memory : Memory) (rom : Rom) : Memory :=
  memory.writeAll (rom.zipIdx.map fun (byte, j) => (programStart + j, byte.toNat))

end Memory

namespace Font

/-- The address of the glyph of the digit 0. -/
def start : Nat := 0

/-- The number of bytes, and so of rows, of one glyph. -/
def glyphSize : Nat := 5

/-- The glyphs of the sixteen hexadecimal digits, one row of eight pixels a byte. -/
def glyphs : List (List Nat) :=
  [ [0xF0, 0x90, 0x90, 0x90, 0xF0],
    [0x20, 0x60, 0x20, 0x20, 0x70],
    [0xF0, 0x10, 0xF0, 0x80, 0xF0],
    [0xF0, 0x10, 0xF0, 0x10, 0xF0],
    [0x90, 0x90, 0xF0, 0x10, 0x10],
    [0xF0, 0x80, 0xF0, 0x10, 0xF0],
    [0xF0, 0x80, 0xF0, 0x90, 0xF0],
    [0xF0, 0x10, 0x20, 0x40, 0x40],
    [0xF0, 0x90, 0xF0, 0x90, 0xF0],
    [0xF0, 0x90, 0xF0, 0x10, 0xF0],
    [0xF0, 0x90, 0xF0, 0x90, 0x90],
    [0xE0, 0x90, 0xE0, 0x90, 0xE0],
    [0xF0, 0x80, 0x80, 0x80, 0xF0],
    [0xE0, 0x90, 0x90, 0x90, 0xE0],
    [0xF0, 0x80, 0xF0, 0x80, 0xF0],
    [0xF0, 0x80, 0xF0, 0x80, 0x80] ]

/-- All glyphs one after the other, as they lie in memory. -/
def bytes : List Nat := glyphs.flatten

/-- The address of the glyph of a digit; of a larger number the lowest four bits count. -/
def address (digit : Nat) : Nat := start + (digit &&& 0xF) * glyphSize

end Font

namespace Memory

/-- Memory when the power comes on: the glyphs, and zeros everywhere else. -/
def initial : Memory :=
  (Bank.replicate capacity 0).writeAll (Font.bytes.zipIdx.map fun (byte, j) => (Font.start + j, byte))

end Memory

end ChipEight
