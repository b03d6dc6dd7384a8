import ChipEight.Number.Quantity
import ChipEight.Text.Integer
import ChipEight.Text.Quoted

/-!
# What a window does

A window acts on its surroundings by opening, drawing, playing tones and asking for calls at intervals.
`Event` lists these actions. `Event.text` is how a record of them is written, in which tones have their
length in milliseconds and calls their number in a second. Not every action can be written so.
-/

namespace ChipEight

/-- The calls that a window asks for at intervals. -/
inductive Callback
  /-- Make the next cycle. -/
  | tick
  /-- Show how fast the last second went. -/
  | measure
  deriving DecidableEq

/-- The name of a call in a record. -/
def Callback.name : Callback → String
  | tick => "tick"
  | measure => "_update_bench"

/-- A tone to be played. -/
structure Tone where
  /-- The frequency in hertz. -/
  frequency : Quantity := .whole 440
  /-- The length in seconds. -/
  duration : Quantity := .whole 1
  deriving DecidableEq

namespace Tone

def sampleRate : Nat := 44100

end Tone

/-- An action of a window. -/
inductive Event
  | opened (width height : Int)
  | labelled (text : String) (x y : Int)
  /-- A call was asked for again and again, at an interval in seconds. -/
  | scheduled (callback : Callback) (interval : Binary64)
  | unscheduled (callback : Callback)
  | closed
  | cleared
  | imageDrawn
  | labelDrawn (text : String)
  /-- The image was replaced by one with `pitch` bytes a row and `size` bytes in all. -/
  | imageSet (pitch : Int) (size : Nat)
  /-- A new player was given a tone. -/
  | toneQueued (tone : Tone)
  | tonePlayed
  | tonePaused
  | toneDeleted
  deriving DecidableEq

namespace Event

def title : String := "CHIP-8 Emulator"

def fontSize : Nat := 12

/-- Why an action cannot be written. -/
inductive TextError
  /-- A number has too many digits. -/
  | digits
  /-- Calls at no interval have no number in a second. -/
  | noInterval
  /-- A number is not near to any whole one. -/
  | notWhole (error : Binary64.WholeError)
  deriving DecidableEq

def TextError.message : TextError → String
  | digits => Text.digitsMessage
  | noInterval => Quantity.RateError.measuredZero.message
  | notWhole error => error.message

/-- A number in decimal digits. -/
def number (n : Int) : Except TextError String :=
  if Text.writable n then .ok (toString n) else .error .digits

/-- The number of calls in a second, to the nearest whole one. -/
def perSecond (interval : Binary64) : Except TextError Int :=
  if interval.isZero then .error .noInterval
  else (Binary64.under 1 interval).round.mapError .notWhole

/-- The length of a tone in whole milliseconds, less what is left over. -/
def milliseconds (tone : Tone) : Except TextError Int :=
  (tone.duration.times 1000).mapError .notWhole

def text : Event → Except TextError String
  | opened width height => do
    return "window " ++ (← number width) ++ "x" ++ (← number height) ++ " " ++ Text.quoted title ++
      " vsync=False"
  | labelled label x y => do
    return "label " ++ Text.quoted label ++ " " ++ toString fontSize ++ " " ++ (← number x) ++ "," ++
      (← number y) ++ " left center 255,255,255,255"
  | scheduled callback interval => do
    return "schedule " ++ callback.name ++ " hz=" ++ (← number (← perSecond interval))
  | unscheduled callback => .ok ("unschedule " ++ callback.name)
  | closed => .ok "closed"
  | cleared => .ok "clear"
  | imageDrawn => .ok "blit 0,0"
  | labelDrawn label => .ok ("label.draw " ++ Text.quoted label)
  | imageSet pitch size => do
    return "set_data RGBA " ++ (← number pitch) ++ " " ++ (← number size)
  | toneQueued tone => do
    return "player.queue " ++ (← number (← milliseconds tone)) ++ "ms " ++ tone.frequency.text ++
      "Hz " ++ toString Tone.sampleRate
  | tonePlayed => .ok "player.play"
  | tonePaused => .ok "player.pause"
  | toneDeleted => .ok "player.delete"

/-- The texts of a record, up to the first event that cannot be written, with the reason for that one. -/
def record : List Event → List String × Option TextError
  | [] => ([], none)
  | event :: rest =>
    match event.text with
    | .error error => ([], some error)
    | .ok line => (line :: (record rest).1, (record rest).2)

end Event

end ChipEight
