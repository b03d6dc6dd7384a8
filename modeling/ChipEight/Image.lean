import ChipEight.Bank

/-!
# Images

An `Image` is a size and a function that gives each pixel; enlarging one is a change of coordinates.
A `Canvas` is an image that is painted pixel by pixel, and refuses a pixel outside of it.
-/

namespace ChipEight

/-- A picture, by the value of its pixels. Column 0 is the leftmost. -/
structure Image (α : Type) where
  width : Nat
  height : Nat
  pixel : Nat → Nat → α

namespace Image

variable {α : Type}

def repeatRows (image : Image α) (times : Nat) : Image α :=
  ⟨image.width, image.height * times, fun x y => image.pixel x (y / times)⟩

def repeatColumns (image : Image α) (times : Nat) : Image α :=
  ⟨image.width * times, image.height, fun x y => image.pixel (x / times) y⟩

/-- The image enlarged without smoothing: each pixel becomes a square of `times` by `times`. -/
def enlarge (image : Image α) (times : Nat) : Image α :=
  ⟨image.width * times, image.height * times, fun x y => image.pixel (x / times) (y / times)⟩

/-- The pixels of one row, from left to right. -/
def row (image : Image α) (y : Nat) : List α :=
  (List.range image.width).map fun x => image.pixel x y

/-- The rows in order, row 0 first. -/
def rows (image : Image α) : List (List α) := (List.range image.height).map image.row

end Image

/-- A picture that is being painted. -/
structure Canvas (α : Type) where
  width : Nat
  height : Nat
  cells : Bank α
  deriving DecidableEq

namespace Canvas

variable {α : Type}

/-- A canvas of one color. -/
def blank (width height : Nat) (color : α) : Canvas α :=
  ⟨width, height, Bank.replicate (width * height) color⟩

/-- Paints one pixel, or refuses a pixel outside of the canvas. -/
def paint? (canvas : Canvas α) (x y : Nat) (color : α) : Option (Canvas α) :=
  if x < canvas.width ∧ y < canvas.height then
    some { canvas with cells := canvas.cells.write (y * canvas.width + x) color }
  else
    none

def image [Inhabited α] (canvas : Canvas α) : Image α :=
  ⟨canvas.width, canvas.height, fun x y => canvas.cells.read (y * canvas.width + x)⟩

end Canvas

end ChipEight
