/-!
# Counting tones

A speaker that makes no sound and counts how often it was told to start and to stop.
-/

namespace ChipEight

/-- What a speaker is told. -/
inductive Signal
  | start
  | stop
  deriving DecidableEq

/-- The calls counted so far, and whether the last one was a start. -/
structure CountingSpeaker where
  starts : Nat := 0
  stops : Nat := 0
  playing : Bool := false
  deriving DecidableEq

def CountingSpeaker.signal (speaker : CountingSpeaker) : Signal → CountingSpeaker
  | .start => { speaker with starts := speaker.starts + 1, playing := true }
  | .stop => { speaker with stops := speaker.stops + 1, playing := false }

end ChipEight
