import ChipEight.Console
import ChipEight.Device.HeldKeys
import ChipEight.Desktop.KeyMap
import ChipEight.Desktop.Panel
import ChipEight.Desktop.PixelBlock

/-!
# The window

A window holds a console and is its display, its keyboard and its speaker. It makes one cycle at every
tick and must not wait in one, so an instruction that waits for a key is tried again at the next tick.
A failure of the emulated computer closes the window and is kept in `failure`.

`Window.launch` opens a window with a program in it; each of the operations after it is the answer to an
event: a tick, a measurement, a redraw, a key, or the wish to close.
-/

namespace ChipEight

/-- An open window, or one that has been closed. -/
structure Window where
  console : Console Panel
  dialect : Dialect
  /-- The random bytes for the console. -/
  random : Nat → Nat
  pressed : HeldKeys := {}
  /-- Redraws since the last measurement. -/
  redraws : Nat := 0
  /-- Completed ticks since the last measurement. -/
  ticks : Nat := 0
  /-- The label that shows the redraws of a second. -/
  redrawLabel : String := "FPS: 0"
  /-- The label that shows the cycles of a second. -/
  tickLabel : String := "Cycles/s: 0"
  failure : Option Trap := none
  /-- How often the window was closed. -/
  closings : Nat := 0
  /-- The threshold of the log. -/
  threshold : Level := .warning
  /-- What the log shows, line by line. -/
  log : Array String := #[]

/-- The number of ticks in a second, where no other one is asked for. -/
def Window.standardRate : Int := 500

/-- How a window is to be opened. -/
structure Window.Setup where
  dialect : Dialect := {}
  random : Nat → Nat := fun _ => 0
  /-- The size of a pixel of the screen in pixels of the window. -/
  scale : Int := 10
  /-- The number of ticks in a second. -/
  ticksPerSecond : Quantity := .whole Window.standardRate
  threshold : Level := .warning
  /-- The file that the program is read from, if it is read from one. -/
  path : Option String := none
  /-- The memory that there is for the image, in bytes, if it is limited. -/
  memory : Option Nat := none

/-- Why a window cannot be opened. -/
inductive Window.OpenError
  /-- The program does not fit. -/
  | program (failure : Failure)
  /-- There is no room for the image. -/
  | image (error : PixelBlock.Error)
  /-- There would be no ticks at all. -/
  | noTicks (error : Quantity.RateError)

def Window.OpenError.message : Window.OpenError → String
  | program failure => failure.message
  | image error => error.message
  | noTicks error => error.message

/-- What became of the wish to open a window, with all that was done and shown until then. -/
structure Window.Opening where
  result : Except Window.OpenError Window
  events : Array Event
  log : Array String

namespace Window

/-! ## Opening -/

/-- How the console of a window is wired: the panel takes every frame and every signal. -/
def wiring : Devices Panel Empty where
  draw panel frame := (panel.draw frame, none)
  signal := some Panel.signal

/-- Moves what the console has told into the log, as far as the threshold lets it through. -/
def showNotices (window : Window) : Window :=
  { window with
    console := { window.console with log := #[] }
    log := window.log ++ (window.threshold.lines window.console.log.toList).toArray }

def note (window : Window) (notice : Notice) : Window :=
  { window with log := window.log ++ (window.threshold.lines [notice]).toArray }

def act (window : Window) (events : List Event) : Window :=
  { window with
    console := { window.console with devices := window.console.devices.act events } }

def events (window : Window) : Array Event := window.console.devices.events

/-- A window that has no program yet. Its console has told of the program, if that is in a file. -/
def empty (setup : Setup) : Window :=
  let console : Console Panel :=
    .new
      (.new setup.scale
        #[.opened (Screen.width * setup.scale) (Screen.height * setup.scale)]) {}
  { console := match setup.path with
      | some path => console.announce path
      | none => console
    dialect := setup.dialect
    random := setup.random
    threshold := setup.threshold }

/-- Puts the labels into a window. -/
def label (window : Window) (setup : Setup) : Window :=
  let top := Screen.height * setup.scale
  window.act [.labelled window.redrawLabel 5 (top - 15), .labelled window.tickLabel 5 (top - 30)]

/-- The time between two measurements, in seconds. -/
def measureInterval : Binary64 := .finite false ⟨1, 1⟩

/-- Asks for the calls that a window needs, with a time in seconds between two ticks. -/
def schedule (window : Window) (interval : Binary64) : Window :=
  window.act [.scheduled .tick interval, .scheduled .measure measureInterval]

/-- What has become of a window that is being opened. -/
def opening (window : Window) (result : Except OpenError Window) : Opening :=
  ⟨result, window.events, window.log⟩

/-- Opens a window that runs a program. -/
def launch (setup : Setup) (rom : Rom) : Opening :=
  let window := empty setup
  match window.console.load rom with
  | .error failure => window.showNotices.opening (.error (.program failure))
  | .ok loaded =>
    let ready := { window with console := loaded }.showNotices
    match PixelBlock.ofScale setup.memory setup.scale with
    | .error error => ready.opening (.error (.image error))
    | .ok _ =>
      let labelled := ready.label setup
      match Quantity.rate 1 setup.ticksPerSecond with
      | .error error => labelled.opening (.error (.noTicks error))
      | .ok interval =>
        let scheduled := labelled.schedule interval
        scheduled.opening (.ok scheduled)

/-! ## Keys -/

/-- The keypad keys that are down, as the console's keyboard reports them. -/
def pressedKeys (window : Window) : List Int := window.pressed.report

/-- What the console finds around it: the keys of the window, and no time to wait. -/
def host (window : Window) : Host where
  dialect := window.dialect
  random := window.random
  reports := some fun _ => window.pressedKeys
  keyWait := some (.whole 0)

/-- Takes the panel's tone away, stops the calls and closes. -/
def close (window : Window) : Window :=
  let quiet :=
    { window with
      console := { window.console with devices := window.console.devices.stopTone } }
  { quiet.act [.unscheduled .tick, .unscheduled .measure, .closed] with
    closings := window.closings + 1 }

/-- A key of the computer's keyboard goes down. -/
def keyPress (window : Window) (symbol : KeySymbol) : Window :=
  if symbol = KeySymbol.escape then window.close
  else if symbol = KeySymbol.logToggle then
    let on := window.threshold != .debug
    { window with threshold := if on then .debug else .warning }.note (.debugLog on)
  else
    match KeySymbol.keypad? symbol with
    | some key => { window with pressed := window.pressed.press key }
    | none => window

/-- A key of the computer's keyboard goes up. -/
def keyRelease (window : Window) (symbol : KeySymbol) : Window :=
  match KeySymbol.keypad? symbol with
  | some key => { window with pressed := window.pressed.release key }
  | none => window

/-! ## Ticks -/

/-- The emulated computer has failed: the window keeps the cause and closes. -/
def fail (window : Window) (trap : Trap) : Window :=
  ({ window with failure := some trap }.note (.stopped (.trap trap))).close

def tick (window : Window) : Window :=
  let (console, stop) := window.console.runOnce window.host wiring
  let after := { window with console := console }.showNotices
  match stop with
  | none => { after with ticks := after.ticks + 1 }
  | some (.trap trap) => after.fail trap
  | some (.abandoned _) => after

/-- Shows how many redraws and ticks there were in the time since the last measurement. -/
def measure (window : Window) (elapsed : Quantity) : Except Quantity.RateError Window :=
  match Quantity.rate window.redraws elapsed with
  | .error error => .error error
  | .ok rate =>
    .ok { window with
      redrawLabel := "FPS: " ++ rate.oneDecimal
      tickLabel := "Cycles/s: " ++ toString window.ticks
      redraws := 0
      ticks := 0 }

def redraw (window : Window) : Window :=
  { window.act
      [.cleared, .imageDrawn, .labelDrawn window.redrawLabel, .labelDrawn window.tickLabel] with
    redraws := window.redraws + 1 }

/-! ## Sound -/

def startTone (window : Window) (tone : Tone) : Window :=
  { window with
    console := { window.console with devices := window.console.devices.startTone tone } }

def stopTone (window : Window) : Window :=
  { window with
    console := { window.console with devices := window.console.devices.stopTone } }

def sounding (window : Window) : Bool := window.console.devices.sounding

def image (window : Window) : Image Rgba := window.console.devices.image

end Window

end ChipEight
