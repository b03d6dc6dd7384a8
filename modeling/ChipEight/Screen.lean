import ChipEight.Bank

/-!
# The screen

A screen is 32 rows of 64 pixels, one word a row, and the highest bit of a word is the leftmost
pixel. A sprite is drawn by flipping pixels one at a time (`Screen.draw`), which also lists each
flipped pixel with its new value and tells whether a lit pixel was hit.
-/

namespace ChipEight

/-- A pixel that was set to a value. -/
structure Change where
  x : Nat
  y : Nat
  lit : Bool
  deriving DecidableEq

/-- The rows of the screen, top row first. -/
structure Screen where
  rows : Bank Nat
  deriving DecidableEq

namespace Screen

def width : Nat := 64

def height : Nat := 32

/-- The row word with only the leftmost pixel lit. -/
def leftmost : Nat := 1 <<< (width - 1)

/-- The row word with only the pixel of column `x` lit. -/
def column (x : Nat) : Nat := leftmost >>> x

def blank : Screen := ⟨Bank.replicate height 0⟩

/-- Whether a pixel of a row word is lit. -/
def rowLit (row x : Nat) : Bool := row &&& column x != 0

/-- Whether the pixel of column `x` and row `y` is lit. -/
def lit (screen : Screen) (x y : Nat) : Bool := rowLit (screen.rows.read y) x

/-- Whether a pixel is lit, where the screen repeats in all four directions. -/
def pixel (screen : Screen) (x y : Int) : Bool :=
  screen.lit (x % width).toNat (y % height).toNat

/-- The row words, top row first. -/
def frame (screen : Screen) : List Nat := screen.rows.toList

/-- The pixels of a row word from left to right, 1 for a lit one and 0 for a dark one. -/
def rowBits (row : Nat) : List Nat :=
  (List.range width).map fun x => (row >>> (width - 1 - x)) &&& 1

/-- The screen as 32 rows of 64 numbers, 1 for a lit pixel and 0 for a dark one. -/
def bitmap (screen : Screen) : List (List Nat) := screen.frame.map rowBits

/-- The columns of the lit pixels of a row word, from left to right. -/
def litColumns (row : Nat) : List Nat :=
  if row = 0 then [] else (List.range width).filter (rowLit row)

theorem litColumns_eq_filter (row : Nat) : litColumns row = (List.range width).filter (rowLit row) := by
  unfold litColumns
  split
  · next h => simp [h, rowLit]
  · rfl

/-- The lit pixels, row by row from the top and from left to right in a row. -/
def litPoints (screen : Screen) : List (Nat × Nat) :=
  screen.frame.zipIdx.flatMap fun (row, y) => (litColumns row).map (·, y)

def flip (screen : Screen) (x y : Nat) : Screen :=
  ⟨screen.rows.write y (screen.rows.read y ^^^ column x)⟩

end Screen

namespace Sprite

/-- The number of pixels in a sprite's row, which is one byte. -/
def width : Nat := 8

/-- Whether the pixel `bit` of a sprite's row is set, counted from the left. -/
def rowSet (byte bit : Nat) : Bool := byte &&& (0x80 >>> bit) != 0

/-- The pixels that a sprite covers when its upper left corner is drawn at `(x, y)`: row by row, with
both coordinates counted modulo the size of the screen. -/
def points (x y : Nat) (bytes : List Nat) : List (Nat × Nat) :=
  bytes.zipIdx.flatMap fun (byte, row) =>
    (List.range width).filterMap fun bit =>
      if rowSet byte bit then some ((x + bit) % Screen.width, (y + row) % Screen.height) else none

end Sprite

/-- A screen that is being drawn on: what was changed so far, in order, and whether some flip met a
lit pixel. -/
structure Drawing where
  screen : Screen
  changes : List Change := []
  collision : Bool := false
  deriving DecidableEq

namespace Drawing

/-- Flips one pixel and records its new value. -/
def flip (drawing : Drawing) (point : Nat × Nat) : Drawing :=
  let flipped := drawing.screen.flip point.1 point.2
  { screen := flipped
    changes := drawing.changes ++ [⟨point.1, point.2, flipped.lit point.1 point.2⟩]
    collision := drawing.collision || drawing.screen.lit point.1 point.2 }

end Drawing

/-- Flips the given pixels one after the other. -/
def Screen.draw (screen : Screen) (points : List (Nat × Nat)) : Drawing :=
  points.foldl Drawing.flip ⟨screen, [], false⟩

end ChipEight
