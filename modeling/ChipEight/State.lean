import ChipEight.Memory
import ChipEight.Screen
import ChipEight.Keypad
import ChipEight.Notice

/-!
# The state of the emulated computer

`State` holds everything an instruction can see or change, together with what the last cycle reported
(`redrawn`, `changes`, `beeping`) and the program that a reset loads again. This file has the
operations on it that are not instructions: power-on, loading a program, reset and the keys.
-/

namespace ChipEight

/-- The emulated computer. -/
structure State where
  memory : Memory
  registers : Bank Nat
  /-- The register called I, which addresses memory. -/
  index : Nat
  pc : Nat
  /-- Return addresses. Those at `depth` and above are left over from calls that have returned. -/
  stack : Bank Nat
  /-- How many calls have not returned yet. -/
  depth : Nat
  keys : Keypad
  delay : Nat
  sound : Nat
  screen : Screen
  /-- Whether the sound timer was running after the last tick. -/
  beeping : Bool
  /-- Whether the last cycle cleared the screen or drew on it. -/
  redrawn : Bool
  /-- The pixels that the last cycle set, in order. -/
  changes : List Change
  /-- The trap that stopped the computer, if one did. -/
  halt : Option Trap
  /-- The program that was loaded last. -/
  program : Option Rom
  deriving DecidableEq

namespace State

def registerCount : Nat := 16

def flagRegister : Nat := 0xF

/-- The number of calls that can be open at a time. -/
def stackCapacity : Nat := 16

/-- The computer when the power comes on, with a program remembered but none in memory. -/
def powerOn (program : Option Rom) : State where
  memory := Memory.initial
  registers := Bank.replicate registerCount 0
  index := 0
  pc := Memory.programStart
  stack := Bank.replicate stackCapacity 0
  depth := 0
  keys := Keypad.released
  delay := 0
  sound := 0
  screen := Screen.blank
  beeping := false
  redrawn := false
  changes := []
  halt := none
  program := program

def initial : State := powerOn none

/-! ## Programs -/

/-- Copies a program to memory and remembers it. -/
def install (state : State) (rom : Rom) : Noted State where
  value := { state with memory := Memory.install state.memory rom, program := some rom }
  notices := [.loaded rom.length]

/-- Loads a program, or refuses one that does not fit. -/
def load (state : State) (rom : Rom) : Except Failure (Noted State) :=
  if rom.length > Memory.programCapacity then
    .error (.oversized rom.length Memory.programCapacity)
  else
    .ok (state.install rom)

/-- The computer as it was when the power came on, with the last program loaded again. -/
def reset (state : State) : Noted State :=
  match state.program with
  | some rom => (powerOn none).install rom
  | none => ⟨powerOn none, []⟩

/-! ## Keys -/

def pressKey (state : State) (number : Int) : State :=
  { state with keys := state.keys.press number }

def releaseKey (state : State) (number : Int) : State :=
  { state with keys := state.keys.release number }

/-- Puts exactly the given keys down. -/
def setKeys (state : State) (numbers : List Int) : State :=
  { state with keys := Keypad.ofReport numbers }

/-! ## Registers -/

def register (state : State) (i : Nat) : Nat := state.registers.read i

def setRegister (state : State) (i value : Nat) : State :=
  { state with registers := state.registers.write i value }

/-- Sets the flag register, to 1 if the flag holds and to 0 otherwise. -/
def setFlag (state : State) (flag : Bool) : State :=
  state.setRegister flagRegister (if flag then 1 else 0)

/-- Passes over the next instruction if the condition holds. -/
def skipIf (state : State) (condition : Bool) : State :=
  if condition then { state with pc := Memory.next state.pc } else state

end State

/-! ## Program images -/

namespace Rom

/-- The bytes that integers stand for, or nothing if some integer is not in the range of a byte. -/
def ofInts? (numbers : List Int) : Option Rom :=
  numbers.mapM fun n => if 0 ≤ n ∧ n < 256 then some (UInt8.ofNat n.toNat) else none

/-- What is wrong with integers that are not bytes. -/
def rangeMessage : String := "bytes must be in range(0, 256)"

end Rom

end ChipEight
