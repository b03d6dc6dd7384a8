import ChipEight.Cycle
import ChipEight.Device.CountingSpeaker

/-!
# The console

A console is a computer that is wired to a display and, if one is there, to a speaker. After every
completed or stalled cycle it draws the screen if the cycle changed it, and then tells the speaker when
the tone starts or stops. A display may refuse a frame; the speaker is not told anything in that cycle.

The devices are a state of any type `δ` with the functions of `Devices` on it.
-/

namespace ChipEight

/-- How the devices of a console take part: `draw` takes a frame or says why it refuses it, and
`signal`, where there is a speaker, takes the start or the stop of the tone. -/
structure Devices (δ ε : Type) where
  draw : δ → List Nat → δ × Option ε
  signal : Option (δ → Signal → δ) := none

/-- A computer with its devices. -/
structure Console (δ : Type) where
  state : State
  usage : Usage
  devices : δ
  /-- Whether the speaker was last told to start. -/
  playing : Bool := false
  /-- The notices given so far, in order. -/
  log : Array Notice := #[]

namespace Console

/-- Why a console stops. -/
inductive Stop (ε : Type)
  | trap (trap : Trap)
  /-- A wait for a key was given up. -/
  | abandoned (error : Wait.Error)
  /-- The display refused a frame. -/
  | display (error : ε)

variable {δ ε : Type}

/-- What is said when there is no display to wire a console to. -/
def noDisplayMessage : String := "chip8: need a display"

def new (devices : δ) (usage : Usage) : Console δ where
  state := State.initial
  usage := usage
  devices := devices

def load (console : Console δ) (rom : Rom) : Except Failure (Console δ) :=
  match console.state.load rom with
  | .ok loaded =>
    .ok { console with state := loaded.value, log := console.log ++ loaded.notices.toArray }
  | .error failure => .error failure

/-- Tells of a program that is about to be read from a file. -/
def announce (console : Console δ) (path : String) : Console δ :=
  { console with log := console.log.push (.reading path) }

/-- Tells the speaker if the tone has started or stopped since it was told last. -/
def updateSpeaker (wiring : Devices δ ε) (console : Console δ) : Console δ :=
  match wiring.signal with
  | none => console
  | some signal =>
    let beeping := console.state.beeping
    let devices :=
      if beeping && !console.playing then signal console.devices .start
      else if !beeping && console.playing then signal console.devices .stop
      else console.devices
    { console with devices := devices, playing := beeping }

/-- Draws the screen if the last cycle changed it, then updates the speaker. -/
def present (wiring : Devices δ ε) : Console δ → Console δ × Option (Stop ε)
  | ⟨state, usage, devices, playing, log⟩ =>
    if state.redrawn then
      match wiring.draw devices state.screen.frame with
      | (devices, none) => (updateSpeaker wiring ⟨state, usage, devices, playing, log⟩, none)
      | (devices, some error) => (⟨state, usage, devices, playing, log⟩, some (.display error))
    else
      (updateSpeaker wiring ⟨state, usage, devices, playing, log⟩, none)

/-- Makes one cycle and presents it. -/
def runOnce (host : Host) (wiring : Devices δ ε) (console : Console δ) :
    Console δ × Option (Stop ε) :=
  let cycle := console.state.step host console.usage
  let after :=
    { console with
      state := cycle.state
      usage := cycle.usage
      log := console.log ++ cycle.notices.toArray }
  match cycle.outcome with
  | .completed | .stalled => present wiring after
  | .trapped trap => (after, some (.trap trap))
  | .refused cause => (after, some (.trap (.halted cause)))
  | .abandoned error => (after, some (.abandoned error))

/-- Makes `count` cycles and stops early at the first that fails. -/
def runTimes (host : Host) (wiring : Devices δ ε) :
    (count : Nat) → Console δ → Console δ × Option (Stop ε)
  | 0, console => (console, none)
  | count + 1, console =>
    match runOnce host wiring console with
    | (after, none) => runTimes host wiring count after
    | failed => failed

/-- Makes as many cycles as the limit says, none if it is negative, and stops early at the first that
fails. -/
def runCycles (host : Host) (wiring : Devices δ ε) (limit : Int) (console : Console δ) :
    Console δ × Option (Stop ε) :=
  runTimes host wiring limit.toNat console

end Console

end ChipEight
