import ChipEight.Image
import ChipEight.Screen
import ChipEight.Notice

/-!
# Animations

A display that turns every frame drawn on it into a picture of black and white pixels, enlarged by a
fixed factor, to be written to a file as one animation. A frame may have any number of rows; one with a
lit pixel below the last row of the screen is refused.

In the file, equal frames that follow one another are one picture that is shown for longer (`Shot`).
The file has two bytes for that time, in hundredths of a second, which not every animation fits.
-/

namespace ChipEight

/-- The frames painted so far and the factor by which they are enlarged. -/
structure Animation where
  scale : Int := 1
  frames : Array (Canvas Nat) := #[]

/-- A picture of a file and the time that it is shown, in hundredths of a second. -/
structure Animation.Shot where
  picture : Image Nat
  time : Nat

namespace Animation

/-- The first bytes of a file that holds an animation. -/
def signature : String := "GIF89a"

def black : Nat := 0

def white : Nat := 255

/-- Why no picture of a size can be made. -/
inductive SizeError
  /-- The width does not fit 64 bits with a sign. -/
  | beyondWord
  /-- The width is above the numbers of 32 bits with a sign. -/
  | tooWide
  /-- The width is below the numbers of 32 bits with a sign. -/
  | tooNarrow
  /-- The pixels need more memory than there is. -/
  | noMemory
  deriving DecidableEq

def SizeError.message : SizeError → String
  | beyondWord => "Python int too large to convert to C long"
  | tooWide => "signed integer is greater than maximum"
  | tooNarrow => "signed integer is less than minimum"
  | noMemory => ""

/-- What can go wrong with an animation. -/
inductive Error
  /-- A frame has a lit pixel outside of the screen. -/
  | outside
  /-- The pictures would have no pixels. -/
  | emptySize
  /-- There is nothing to write. -/
  | noFrames
  /-- A picture would be shown for a time below zero. -/
  | negativeTime
  /-- A picture would be shown for longer than a file can say. -/
  | longTime
  /-- The time that a picture would be shown has no hundredths of a second. -/
  | unboundedTime (error : Quantity.PartError)
  /-- A picture of that size cannot be made. -/
  | size (error : SizeError)
  deriving DecidableEq

def Error.message : Error → String
  | outside => "image index out of range"
  | emptySize => "height and width must be > 0"
  | noFrames => "no frames were drawn"
  | negativeTime => "can't convert negative int to unsigned"
  | longTime => "int too big to convert"
  | unboundedTime error => error.message
  | size error => error.message

/-! ## Drawing -/

/-- Paints the lit pixels of one row. -/
def paintRow (canvas : Canvas Nat) (row y : Nat) : Option (Canvas Nat) :=
  (Screen.litColumns row).foldlM (fun canvas x => canvas.paint? x y white) canvas

/-- Paints the lit pixels of a frame on a black canvas of the size of the screen, unless one of them
lies outside. -/
def paintFrame (frame : List Nat) : Option (Canvas Nat) :=
  frame.zipIdx.foldlM (fun canvas (row, y) => paintRow canvas row y)
    (Canvas.blank Screen.width Screen.height black)

/-- Adds a frame, or says why it cannot be added. Pictures may have any size. -/
def draw (animation : Animation) (frame : List Nat) : Animation × Option Error :=
  match paintFrame frame with
  | none => (animation, some .outside)
  | some canvas =>
    if animation.scale ≤ 0 then (animation, some .emptySize)
    else ({ animation with frames := animation.frames.push canvas }, none)

/-- Why pictures that are enlarged by a factor cannot be made in the memory that there is, if they
cannot. -/
def sizeError? (memory : Option Nat) (scale : Int) : Option SizeError :=
  let width := Screen.width * scale
  if width < -0x8000000000000000 ∨ 0x8000000000000000 ≤ width then some .beyondWord
  else if 0x80000000 ≤ width then some .tooWide
  else if width < -0x80000000 then some .tooNarrow
  else if 0 < width ∧ memory.any (· ≤ width * (Screen.height * scale)) then some .noMemory
  else none

/-- Adds a frame as far as pictures of its size can be made. -/
def drawWithinMemory (memory : Option Nat) (animation : Animation) (frame : List Nat) :
    Animation × Option Error :=
  match animation.draw frame, sizeError? memory animation.scale with
  | (_, some .outside), _ => (animation, some .outside)
  | _, some error => (animation, some (.size error))
  | drawn, none => drawn

def enlarged (animation : Animation) (canvas : Canvas Nat) : Image Nat :=
  canvas.image.enlarge animation.scale.toNat

/-- The picture of the frame with a number. -/
def picture? (animation : Animation) (i : Nat) : Option (Image Nat) :=
  animation.frames[i]?.map animation.enlarged

/-- The pictures of all frames, in order. -/
def pictures (animation : Animation) : List (Image Nat) :=
  animation.frames.toList.map animation.enlarged

/-! ## Files -/

/-- The time of a frame in milliseconds, where no other one is asked for. -/
def standardTime : Quantity := .whole 20

/-- The longest time that a file can say. -/
def maxTime : Int := 65535

/-- One more frame behind counted ones, of which the last comes first: it is counted with the last one
if it is equal to it. -/
def count (counted : List (Nat × Canvas Nat)) (canvas : Canvas Nat) : List (Nat × Canvas Nat) :=
  match counted with
  | (n, last) :: before =>
    if canvas = last then (n + 1, last) :: before else (1, canvas) :: counted
  | [] => [(1, canvas)]

/-- The frames, with equal ones that follow one another counted. -/
def counted (animation : Animation) : List (Nat × Canvas Nat) :=
  (animation.frames.foldl count []).reverse

/-- The time of so many frames in hundredths of a second, less what is left over. The times of the
frames are added up one after the other. -/
def shotTime (time : Quantity) (frames : Nat) : Except Error Nat :=
  match (time.total frames).part 10 with
  | .error error => .error (.unboundedTime error)
  | .ok hundredths =>
    if hundredths < 0 then .error .negativeTime
    else if hundredths > maxTime then .error .longTime
    else .ok hundredths.toNat

/-- The pictures of a file in which every frame is shown for a time. -/
def shots (animation : Animation) (time : Quantity) : Except Error (List Shot) :=
  animation.counted.mapM fun (n, canvas) =>
    (shotTime time n).map fun hundredths => ⟨animation.enlarged canvas, hundredths⟩

/-- What is written to a file, with the notice that it was. -/
def save (animation : Animation) (path : String) (time : Quantity) :
    Except Error (Noted (List Shot)) :=
  if animation.frames.isEmpty then .error .noFrames
  else (animation.shots time).map (⟨·, [.saved animation.frames.size path]⟩)

end Animation

end ChipEight
