import ChipEight.Image
import ChipEight.Screen
import ChipEight.Text.ByteCount

/-!
# Blocks of pixels

The image of a window lies in memory as one block, row by row. Enlarging the screen makes two blocks: one
with the rows repeated, and the image itself with the columns repeated too. The counts of rows and
columns are numbers of 64 bits with a sign and go round beyond them. A positive scale for which they have
gone round copies more pixels than the block has room for; a negative one can make a block of pixels that
nothing is ever copied to.

* `PixelBlock.enlarged` is the block that an image of a scale lies in.
* `PixelBlock.ofScale` is the same block with its memory reserved, or why there is none. How much memory
  there is may be limited or not.
-/

namespace ChipEight

/-- The counts of rows and columns of a block. -/
structure PixelBlock where
  rows : Int
  columns : Int
  deriving DecidableEq

namespace PixelBlock

/-- Why a block cannot be had. -/
inductive Error
  /-- The scale does not fit 64 bits with a sign. -/
  | scale
  /-- A count is negative. -/
  | negative
  /-- The bytes cannot be counted with 64 bits and a sign. -/
  | uncountable
  /-- The bytes are more than there are in memory. -/
  | noMemory (block : PixelBlock)
  /-- More pixels would be copied than there is room for, which nothing survives that could tell of it. -/
  | overrun
  deriving DecidableEq

def pixelSize : Nat := 4

/-- The number of bytes that a block holds; none where a count is negative. -/
def size (block : PixelBlock) : Nat := block.rows.toNat * block.columns.toNat * pixelSize

/-- The number of bytes that memory is reserved for. A count of zero is passed over. -/
def bytes (block : PixelBlock) : Nat :=
  max block.rows.natAbs 1 * max block.columns.natAbs 1 * pixelSize

/-- The three counts of a block: rows, columns, and bytes of a pixel. -/
def shape (block : PixelBlock) : String :=
  "(" ++ toString block.rows ++ ", " ++ toString block.columns ++ ", " ++ toString pixelSize ++ ")"

def Error.message : Error → String
  | scale => "Python int too large to convert to C long"
  | negative => "negative dimensions are not allowed"
  | uncountable =>
    "array is too big; `arr.size * arr.dtype.itemsize` is larger than the maximum possible size."
  | noMemory block =>
    "Unable to allocate " ++ Text.byteCount block.bytes ++ " for an array with shape " ++
      block.shape ++ " and data type uint8"
  | overrun => ""

/-- Whether a number fits 64 bits with a sign. -/
def fits (n : Int) : Bool := -0x8000000000000000 ≤ n && n < 0x8000000000000000

/-- The number of 64 bits with a sign that a count goes round to. -/
def wrapped (n : Int) : Int := n.bmod 0x10000000000000000

def reserve (memory : Option Nat) (block : PixelBlock) : Except Error PixelBlock :=
  if block.rows < 0 ∨ block.columns < 0 then .error .negative
  else if !fits block.bytes then .error .uncountable
  else if memory.any (· ≤ block.bytes) then .error (.noMemory block)
  else .ok block

/-- The block of the screen enlarged by a scale. -/
def enlarged (scale : Int) : PixelBlock :=
  ⟨wrapped (Screen.height * scale), wrapped (Screen.width * scale)⟩

/-- Reserves the memory for the screen enlarged by a scale: for the rows first, which are copied there, then
for all of it. Nothing is done where nothing is to be enlarged. -/
def ofScale (memory : Option Nat) (scale : Int) : Except Error PixelBlock :=
  let block := enlarged scale
  if scale = 1 then .ok block
  else if !fits scale then .error .scale
  else
    match reserve memory { block with columns := Screen.width } with
    | .error error => .error error
    | .ok tall => if tall.rows < Screen.height * scale then .error .overrun else reserve memory block

end PixelBlock

end ChipEight
