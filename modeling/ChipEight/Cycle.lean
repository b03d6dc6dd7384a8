import ChipEight.State
import ChipEight.Host
import ChipEight.Instruction

/-!
# One cycle

A cycle takes the keys from the keyboard, fetches an instruction word, carries it out and lets the two
timers tick. It ends in one of five ways (`Outcome`): an instruction that waits for a key may stall,
one that cannot be carried out halts the computer at its own address, and a halted computer refuses
every further cycle and changes nothing.

* `execute` is the effect of one instruction on a state whose `pc` is past it.
* `State.stepWith` is a cycle for any table of instructions, `State.step` the one for
  `Instruction.table`.
* `State.run` makes cycles until one fails.
-/

namespace ChipEight

/-- How a cycle ends. -/
inductive Outcome
  | completed
  /-- The instruction waits for a key and will be tried again. -/
  | stalled
  /-- The instruction could not be carried out; the computer is halted now. -/
  | trapped (trap : Trap)
  /-- The computer had been halted before. -/
  | refused (cause : Trap)
  /-- A wait for a key was given up. -/
  | abandoned (error : Wait.Error)
  deriving DecidableEq

namespace Outcome

/-- The trap that the cycle reports, if it reports one. -/
def trap? : Outcome → Option Trap
  | trapped trap => some trap
  | refused cause => some (.halted cause)
  | completed | stalled | abandoned _ => none

/-- Whether a run goes on after this cycle. -/
def goesOn : Outcome → Bool
  | completed | stalled => true
  | trapped _ | refused _ | abandoned _ => false

end Outcome

/-- What a cycle leaves behind. -/
structure Cycle where
  state : State
  usage : Usage
  outcome : Outcome
  notices : List Notice := []

namespace Cycle

def done (state : State) (usage : Usage) : Cycle := ⟨state, usage, .completed, []⟩

/-- A cycle whose instruction could not be carried out. -/
def failed (trap : Trap) (state : State) (usage : Usage) : Cycle :=
  ⟨state, usage, .trapped trap, []⟩

/-- The cycle with one more notice at the end. -/
def note (cycle : Cycle) (notice : Notice) : Cycle :=
  { cycle with notices := cycle.notices ++ [notice] }

end Cycle

/-! ## The instructions -/

namespace State

/-- The sum of two registers, with the carry as flag. -/
def add (state : State) (x y : Nat) : State :=
  let total := state.register x + state.register y
  (state.setRegister x (total &&& 0xFF)).setFlag (total > 0xFF)

/-- The difference of two bytes put into register `x`, with a flag that says that nothing was
borrowed. -/
def subtract (state : State) (x minuend subtrahend : Nat) : State :=
  (state.setRegister x ((minuend + 256 - subtrahend) &&& 0xFF)).setFlag (minuend > subtrahend)

/-- Half of a register, with the bit that falls out as flag. -/
def shiftRight (state : State) (x : Nat) : State :=
  let value := state.register x
  (state.setRegister x (value >>> 1)).setFlag (value &&& 1 == 1)

/-- Twice a register, with the bit that falls out as flag. -/
def shiftLeft (state : State) (x : Nat) : State :=
  let value := state.register x
  (state.setRegister x ((value <<< 1) &&& 0xFF)).setFlag ((value >>> 7) &&& 1 == 1)

/-- Adds a register to the index. Where the dialect asks for it, the flag says whether the sum ran past
the top of memory. -/
def addToIndex (state : State) (dialect : Dialect) (x : Nat) : State :=
  let total := state.index + state.register x
  let moved := { state with index := Memory.wrap total }
  if dialect.indexOverflowFlag then moved.setFlag (total > 0xFFF) else moved

/-- The index just past the `count` bytes that were moved, where the dialect moves it. -/
def passBytes (state : State) (dialect : Dialect) (count : Nat) : State :=
  if dialect.loadStoreMovesIndex then { state with index := Memory.wrap (state.index + count) }
  else state

/-- The writes that put the three decimal digits of register `x` at the index. -/
def digitWrites (state : State) (x : Nat) : List (Nat × Nat) :=
  let value := state.register x
  (Memory.window state.index 3).zip [value / 100, value / 10 % 10, value % 10]

/-- The writes that put registers 0 to `x` at the index. -/
def storeWrites (state : State) (x : Nat) : List (Nat × Nat) :=
  (Memory.window state.index (x + 1)).zip ((List.range (x + 1)).map state.register)

/-- The register writes that take registers 0 to `x` from the index. -/
def loadWrites (state : State) (x : Nat) : List (Nat × Nat) :=
  (List.range (x + 1)).zip (Memory.bytes state.memory state.index (x + 1))

def writeMemory (state : State) (writes : List (Nat × Nat)) : State :=
  { state with memory := state.memory.writeAll writes }

/-- Darkens the screen; the pixels that were lit are the ones that change. -/
def clearScreen (state : State) : State :=
  { state with
    screen := Screen.blank
    redrawn := true
    changes := state.screen.litPoints.map fun (x, y) => ⟨x, y, false⟩ }

/-- The sprite at the index, drawn on the screen at the point held by two registers. -/
def sprite (state : State) (x y rows : Nat) : Drawing :=
  state.screen.draw
    (Sprite.points (state.register x) (state.register y)
      (Memory.bytes state.memory state.index rows))

/-- Draws the sprite at the index, with a flag that says whether a lit pixel was hit. -/
def drawSprite (state : State) (x y rows : Nat) : State :=
  let drawing := state.sprite x y rows
  { state with screen := drawing.screen, redrawn := true, changes := drawing.changes }.setFlag
    drawing.collision

end State

/-- The effect of an instruction that was fetched as `word`. The state's `pc` is already past the
instruction. -/
def execute (host : Host) (word : Nat) (instruction : Instruction) (state : State) (usage : Usage) :
    Cycle :=
  let done (after : State) : Cycle := .done after usage
  let set (x value : Nat) : Cycle := done (state.setRegister x value)
  match instruction with
  | .clear => done state.clearScreen
  | .ret =>
    if state.depth = 0 then
      .failed (.stackUnderflow word (Memory.previous state.pc)) state usage
    else
      let target := state.stack.read (state.depth - 1)
      (done { state with depth := state.depth - 1, pc := target }).note (.returned target)
  | .jump address => done { state with pc := address }
  | .call address =>
    if state.depth ≥ State.stackCapacity then
      .failed (.stackOverflow word (Memory.previous state.pc)) state usage
    else
      (done
        { state with
          stack := state.stack.write state.depth state.pc
          depth := state.depth + 1
          pc := address }).note (.called address)
  | .skipIfByte x byte => done (state.skipIf (state.register x == byte))
  | .skipUnlessByte x byte => done (state.skipIf (state.register x != byte))
  | .skipIfSame x y => done (state.skipIf (state.register x == state.register y))
  | .setByte x byte => set x byte
  | .addByte x byte => set x ((state.register x + byte) &&& 0xFF)
  | .copy x y => set x (state.register y)
  | .or x y => set x (state.register x ||| state.register y)
  | .and x y => set x (state.register x &&& state.register y)
  | .xor x y => set x (state.register x ^^^ state.register y)
  | .add x y => done (state.add x y)
  | .sub x y => done (state.subtract x (state.register x) (state.register y))
  | .shiftRight x => done (state.shiftRight x)
  | .subFrom x y => done (state.subtract x (state.register y) (state.register x))
  | .shiftLeft x => done (state.shiftLeft x)
  | .skipUnlessSame x y => done (state.skipIf (state.register x != state.register y))
  | .setIndex address => done { state with index := address }
  | .jumpOffset address => done { state with pc := Memory.wrap (address + state.register 0) }
  | .random x byte =>
    .done (state.setRegister x (host.random usage.drawn &&& byte))
      { usage with drawn := usage.drawn + 1 }
  | .draw x y rows =>
    (done (state.drawSprite x y rows)).note
      (.drew rows (state.register x) (state.register y) (state.sprite x y rows).collision)
  | .skipIfDown x => done (state.skipIf (state.keys.isDown (state.register x &&& 0xF)))
  | .skipUnlessDown x => done (state.skipIf (!state.keys.isDown (state.register x &&& 0xF)))
  | .readDelay x => set x state.delay
  | .awaitKey x =>
    let result := host.awaitKey state.keys usage
    let seen := { state with keys := result.keys }
    match result.wait with
    | .pressed key => (Cycle.done (seen.setRegister x key) result.usage).note (.gotKey key)
    | .expired => ⟨{ seen with pc := Memory.previous seen.pc }, result.usage, .stalled, []⟩
    | .abandoned error => ⟨seen, result.usage, .abandoned error, []⟩
  | .setDelay x => done { state with delay := state.register x }
  | .setSound x => done { state with sound := state.register x }
  | .addToIndex x => done (state.addToIndex host.dialect x)
  | .glyph x => done { state with index := Font.address (state.register x) }
  | .digits x => done (state.writeMemory (state.digitWrites x))
  | .store x => done ((state.writeMemory (state.storeWrites x)).passBytes host.dialect (x + 1))
  | .load x =>
    done
      ({ state with registers := state.registers.writeAll (state.loadWrites x) }.passBytes
        host.dialect (x + 1))

/-! ## The cycle -/

namespace State

/-- The timers one tick later. The tone sounds as long as the sound timer runs. -/
def tick (state : State) : State :=
  { state with
    delay := state.delay - 1
    sound := state.sound - 1
    beeping := state.sound - 1 > 0 }

/-- The state at the start of a cycle: nothing reported yet, and the keys as given. -/
def beginCycle (state : State) (keys : Keypad) : State :=
  { state with redrawn := false, changes := [], keys := keys }

/-- The instruction word that comes next. -/
def nextWord (state : State) : Nat := Memory.word state.memory state.pc

/-- What is left of a cycle after its instruction: a completed one ticks the timers, and a trap halts
the computer at the address of the instruction. -/
def finish (address : Nat) (cycle : Cycle) : Cycle :=
  match cycle.outcome with
  | .completed => { cycle with state := cycle.state.tick }
  | .trapped trap =>
    { cycle with
      state := { cycle.state with pc := address, halt := some trap }
      notices := cycle.notices ++ [.halted trap] }
  | _ => cycle

/-- One cycle of a computer that knows the instructions of a table. -/
def stepWith (table : List Encoding) (host : Host) (state : State) (usage : Usage) : Cycle :=
  match state.halt with
  | some cause => ⟨state, usage, .refused cause, []⟩
  | none =>
    let (keys, usage) := host.refresh state.keys usage
    let start := state.beginCycle keys
    let word := start.nextWord
    let fetched := { start with pc := Memory.next start.pc }
    let cycle :=
      match Encoding.decode table word with
      | some instruction => execute host word instruction fetched usage
      | none => .failed (.unimplemented word start.pc) fetched usage
    finish start.pc { cycle with notices := .fetched start.pc word :: cycle.notices }

def step (host : Host) (state : State) (usage : Usage) : Cycle :=
  stepWith Instruction.table host state usage

end State

/-! ## Runs -/

/-- What a run of cycles leaves behind: the value of `pc` before each cycle that was tried, and how the
last one ended. -/
structure Run where
  state : State
  usage : Usage
  outcome : Outcome
  trace : List Nat
  notices : List Notice

namespace State

/-- Makes up to `count` cycles and stops after the first that fails. `trace` and `notices` collect what
came before, the latest first. -/
def runFrom (host : Host) (trace : List Nat) (notices : List Notice) :
    (count : Nat) → State → Usage → Run
  | 0, state, usage => ⟨state, usage, .completed, trace.reverse, notices.reverse⟩
  | count + 1, state, usage =>
    let cycle := state.step host usage
    let trace := state.pc :: trace
    let notices := cycle.notices.reverse ++ notices
    if cycle.outcome.goesOn then
      runFrom host trace notices count cycle.state cycle.usage
    else
      ⟨cycle.state, cycle.usage, cycle.outcome, trace.reverse, notices.reverse⟩

/-- Makes up to `count` cycles and stops after the first that fails. -/
def run (host : Host) (count : Nat) (state : State) (usage : Usage) : Run :=
  runFrom host [] [] count state usage

end State

end ChipEight
