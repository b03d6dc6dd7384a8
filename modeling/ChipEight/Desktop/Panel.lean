import ChipEight.Image
import ChipEight.Screen
import ChipEight.Desktop.Event
import ChipEight.Desktop.PixelBlock
import ChipEight.Device.CountingSpeaker

/-!
# The panel of a window

The panel is the part of a window that the console is wired to: its image, which shows the screen
enlarged, and its tone player. The image has its bottom row first.
-/

namespace ChipEight

/-- A color with its opacity. -/
structure Rgba where
  red : Nat
  green : Nat
  blue : Nat
  alpha : Nat
  deriving DecidableEq, Inhabited

namespace Rgba

/-- The color of the image before anything is drawn. -/
def black : Rgba := ⟨0, 0, 0, 255⟩

/-- The color made gray, with its opacity kept. -/
def withGray (color : Rgba) (gray : Nat) : Rgba :=
  { color with red := gray, green := gray, blue := gray }

def size : Nat := 4

end Rgba

/-- The screen as the window paints it, one color a pixel and the bottom row first. -/
abbrev Painting := Canvas Rgba

namespace Painting

def dark : Painting := Canvas.blank Screen.width Screen.height Rgba.black

/-- The gray values of a frame in the order of the painting. -/
def grays (frame : List Nat) : List Nat :=
  (frame.map Screen.rowBits).reverse.flatten.map (· * 255)

/-- Paints a frame. Only the colors change, not their opacity. -/
def paint (painting : Painting) (frame : List Nat) : Painting :=
  { painting with
    cells := ⟨(painting.cells.toList.zipWith Rgba.withGray (grays frame)).toArray⟩ }

/-- The painting enlarged: first the rows are repeated, then the columns. -/
def upscaled (painting : Painting) (scale : Nat) : Image Rgba :=
  if scale = 1 then painting.image
  else (painting.image.repeatRows scale).repeatColumns scale

end Painting

/-- The image and the tone player of a window, with a record of what was done with them. -/
structure Panel where
  scale : Int
  painting : Painting := Painting.dark
  image : Image Rgba
  /-- Whether there is a tone player. -/
  sounding : Bool := false
  events : Array Event := #[]

namespace Panel

def new (scale : Int) (events : Array Event) : Panel where
  scale := scale
  image := Painting.dark.upscaled scale.toNat
  events := events

def act (panel : Panel) (events : List Event) : Panel :=
  { panel with events := panel.events ++ events.toArray }

/-- The number of columns that the image is declared to have. Where the scale is negative there are
none. -/
def width (panel : Panel) : Int := Screen.width * panel.scale

/-- The number of rows that the image is declared to have. -/
def height (panel : Panel) : Int := Screen.height * panel.scale

def draw (panel : Panel) (frame : List Nat) : Panel :=
  let painting := panel.painting.paint frame
  { panel with painting := painting, image := painting.upscaled panel.scale.toNat }.act
    [.imageSet (panel.width * Rgba.size) (PixelBlock.enlarged panel.scale).size]

/-- Starts a tone with a new player. -/
def startTone (panel : Panel) (tone : Tone) : Panel :=
  { panel with sounding := true }.act [.toneQueued tone, .tonePlayed]

/-- Stops the tone and gives its player back, if there is one. -/
def stopTone (panel : Panel) : Panel :=
  if panel.sounding then { panel with sounding := false }.act [.tonePaused, .toneDeleted] else panel

/-- Follows the console's signals with the standard tone. -/
def signal (panel : Panel) : Signal → Panel
  | .start => panel.startTone {}
  | .stop => panel.stopTone

end Panel

end ChipEight
