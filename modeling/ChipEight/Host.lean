import ChipEight.Keypad
import ChipEight.Dialect
import ChipEight.Number.Quantity

/-!
# The host of an emulated computer

A computer depends on its surroundings in four ways: random bytes, keyboard reports, the time and the
dialect it speaks. `Host` fixes what the surroundings offer, as functions of how often they were asked,
and `Usage` counts what was taken of it. Two runs can so be compared that differ in one of these alone.
-/

namespace ChipEight

/-- What the surroundings of a computer offer. -/
structure Host where
  dialect : Dialect := {}
  /-- The random bytes, by the number of bytes drawn before. -/
  random : Nat → Nat := fun _ => 0
  /-- The keys that the keyboard reports, by the number of reports before; nothing without a keyboard. -/
  reports : Option (Nat → List Int) := none
  /-- How long a waiting computer sleeps between two looks at the keyboard. -/
  pollInterval : Int := 0
  /-- How long a computer waits for a key; without a limit, until a key is down. -/
  keyWait : Option Quantity := none

/-- How much of its surroundings a computer has used. -/
structure Usage where
  /-- Random bytes drawn. -/
  drawn : Nat := 0
  /-- Keyboard reports taken. -/
  polls : Nat := 0
  /-- The time, which passes only while the computer sleeps. -/
  clock : Int := 0
  /-- How many more times the surroundings let the computer sleep. -/
  patience : Nat := 0
  deriving DecidableEq

namespace Host

/-- How long a computer on a real host sleeps between two looks at the keyboard, in milliseconds. -/
def standardPollMilliseconds : Nat := 5

/-- The keys as the keyboard reports them now. Without a keyboard they stay as they are. -/
def refresh (host : Host) (keys : Keypad) (usage : Usage) : Keypad × Usage :=
  match host.reports with
  | some report =>
    (Keypad.ofReport (report usage.polls), { usage with polls := usage.polls + 1 })
  | none => (keys, usage)

end Host

/-! ## Waiting for a key -/

/-- Why a wait for a key is given up. -/
inductive Wait.Error
  /-- The surroundings did not let the computer sleep any more. -/
  | sleepless
  /-- The time is too large to tell when the wait would be over. -/
  | timeless
  deriving DecidableEq

def Wait.Error.message : Wait.Error → String
  | sleepless => "the wait for a key was given up"
  | timeless => "int too large to convert to float"

/-- How a wait for a key can end. -/
inductive Wait
  | pressed (key : Nat)
  /-- No key was down when the time was up. -/
  | expired
  /-- The wait was given up. -/
  | abandoned (error : Wait.Error)
  deriving DecidableEq

/-- The end of a wait, with the keys as they were seen last. -/
structure Wait.Result where
  wait : Wait
  keys : Keypad
  usage : Usage

namespace Host

/-- When a wait that begins at a time is over: never, if there is no limit. -/
def deadline (host : Host) (start : Int) : Except Wait.Error (Option Quantity) :=
  match host.keyWait with
  | none => .ok none
  | some length =>
    match length.after start with
    | some deadline => .ok (some deadline)
    | none => .error .timeless

/-- Looks at the keyboard until a key is down or the deadline has come, and sleeps in between, but at
most `patience` times. -/
def watchKeys (host : Host) (deadline : Option Quantity) :
    (patience : Nat) → Keypad → Usage → Wait.Result
  | patience, keys, usage =>
    let (keys, usage) := host.refresh keys usage
    match keys.lowest with
    | some key => ⟨.pressed key, keys, { usage with patience := patience }⟩
    | none =>
      if deadline.any (·.isOver usage.clock) then
        ⟨.expired, keys, { usage with patience := patience }⟩
      else
        match patience with
        | 0 => ⟨.abandoned .sleepless, keys, { usage with patience := 0 }⟩
        | patience + 1 =>
          host.watchKeys deadline patience keys
            { usage with clock := usage.clock + host.pollInterval }

/-- Waits for a key as long as the host says. -/
def awaitKey (host : Host) (keys : Keypad) (usage : Usage) : Wait.Result :=
  match host.deadline usage.clock with
  | .ok deadline => host.watchKeys deadline usage.patience keys usage
  | .error error => ⟨.abandoned error, keys, usage⟩

end Host

end ChipEight
