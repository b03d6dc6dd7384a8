/-!
# Recording frames

A display that keeps a copy of every frame that is drawn on it, until it is full if it has an end.
-/

namespace ChipEight

/-- The frames drawn so far, each a list of row words with the top row first. -/
structure FrameRecorder where
  frames : Array (List Nat) := #[]
  deriving DecidableEq

namespace FrameRecorder

/-- A frame was drawn on a display that holds no more. -/
inductive Error
  | full
  deriving DecidableEq

def Error.message : Error → String
  | full => "display is full"

def record (recorder : FrameRecorder) (frame : List Nat) : FrameRecorder :=
  ⟨recorder.frames.push frame⟩

/-- Keeps a frame, unless there are `limit` of them already. -/
def draw (limit : Option Nat) (recorder : FrameRecorder) (frame : List Nat) :
    FrameRecorder × Option Error :=
  if limit.any (· ≤ recorder.frames.size) then (recorder, some .full)
  else (recorder.record frame, none)

/-- The frame that was drawn last, if any was. -/
def last? (recorder : FrameRecorder) : Option (List Nat) := recorder.frames.back?

end FrameRecorder

end ChipEight
