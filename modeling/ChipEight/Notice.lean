import ChipEight.Failure

/-!
# Notices

What the emulator tells its user while it works. Each notice has a level and comes from one part of
the emulator; a line of the log shows both and the text. A log shows the notices whose level is not
below its threshold.
-/

namespace ChipEight

/-- How much a notice matters. -/
inductive Level
  | debug
  | info
  | warning
  | error
  deriving DecidableEq

namespace Level

/-- The order of the levels. -/
def rank : Level → Nat
  | debug => 0
  | info => 1
  | warning => 2
  | error => 3

/-- The name of a level in the log. -/
def name : Level → String
  | debug => "DEBUG"
  | info => "INFO"
  | warning => "WARNING"
  | error => "ERROR"

/-- Whether a log with this threshold shows notices of a level. -/
def shows (threshold level : Level) : Bool := threshold.rank ≤ level.rank

end Level

/-- Something worth telling. -/
inductive Notice
  /-- A program is about to be read from a file. -/
  | reading (path : String)
  /-- A program of `size` bytes is in memory. -/
  | loaded (size : Nat)
  | fetched (address word : Nat)
  | returned (address : Nat)
  | called (address : Nat)
  | drew (rows x y : Nat) (collision : Bool)
  | gotKey (key : Nat)
  | halted (trap : Trap)
  /-- An animation was written to a file. -/
  | saved (frames : Nat) (path : String)
  /-- The emulation behind a window has failed. -/
  | stopped (failure : Failure)
  /-- The user has turned the debugging log on or off. -/
  | debugLog (on : Bool)

namespace Notice

def level : Notice → Level
  | fetched .. | returned .. | called .. | drew .. | gotKey .. => .debug
  | reading .. | loaded .. | saved .. => .info
  | debugLog .. => .warning
  | halted .. | stopped .. => .error

/-- The part of the emulator that a notice comes from. -/
def origin : Notice → String
  | loaded .. | fetched .. | returned .. | called .. | drew .. | gotKey .. | halted .. =>
    "chip8emu.machine"
  | reading .. => "chip8emu.chip8"
  | saved .. => "chip8emu.gif"
  | stopped .. | debugLog .. => "chip8emu.window"

def text : Notice → String
  | reading path => "Loading ROM: " ++ path
  | loaded size => s!"loaded {size} bytes of rom into memory"
  | fetched address word => Text.hex 3 address ++ ": " ++ Text.hex 4 word
  | returned address => "return to " ++ Text.hex 3 address
  | called address => "call subroutine at " ++ Text.hex 3 address
  | drew rows x y collision =>
    s!"drew {rows}-row sprite at ({x}, {y}), collision=" ++ (if collision then "1" else "0")
  | gotKey key => "got key press: " ++ Text.hex 1 key
  | halted trap => "halted: " ++ trap.message
  | saved frames path => s!"wrote {frames} frames to " ++ path
  | stopped failure => "Emulation error: " ++ failure.message
  | debugLog on => "debug logging " ++ (if on then "on" else "off")

/-- The line of the log that shows a notice. -/
def line (notice : Notice) : String := notice.level.name ++ " " ++ notice.origin ++ ": " ++ notice.text

end Notice

/-- The lines that a log with a threshold shows. -/
def Level.lines (threshold : Level) (notices : List Notice) : List String :=
  (notices.filter fun n => threshold.shows n.level).map Notice.line

/-- A result together with the notices that were given on the way. -/
structure Noted (α : Type) where
  value : α
  notices : List Notice := []

end ChipEight
