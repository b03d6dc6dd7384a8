import ChipEight.Animation

/-!
# Animation files

The bytes of a file that shows pictures of black and white pixels one after the other and starts over at
the end. The pixels are written as codes of one byte: the table of colors has 128 entries, and the code
that empties the decoder's dictionary comes so often that codes never get longer.
-/

namespace ChipEight.Animation

/-- A number below 65536 in two bytes, the lower one first. -/
def twoBytes (n : Nat) : List UInt8 := [UInt8.ofNat (n % 256), UInt8.ofNat (n / 256 % 256)]

def asciiBytes (text : String) : List UInt8 := text.toList.map fun c => UInt8.ofNat c.toNat

/-- The table of colors: black, white, and black for all entries that are not used. -/
def colorTable : List UInt8 := [0, 0, 0, 255, 255, 255] ++ List.replicate (126 * 3) 0

/-- The size of the pictures, the colors, and the wish to start over at the end. -/
def fileHeader (width height : Nat) : List UInt8 :=
  asciiBytes signature ++ twoBytes width ++ twoBytes height ++ [0xF6, 0, 0] ++ colorTable ++
    [0x21, 0xFF, 11] ++ asciiBytes "ANIMEXTS1.0" ++ [3, 1, 0, 0, 0]

/-- The time that a picture is shown and its size. -/
def pictureHeader (shot : Shot) : List UInt8 :=
  [0x21, 0xF9, 4, 0] ++ twoBytes shot.time ++ [0, 0] ++
    [0x2C, 0, 0, 0, 0] ++ twoBytes shot.picture.width ++ twoBytes shot.picture.height ++ [0]

def pixelBits : UInt8 := 7

/-- The code that empties the decoder's dictionary. -/
def emptyCode : UInt8 := 128

/-- The code behind the last pixel. -/
def endCode : UInt8 := 129

/-- The number of pixels after which the dictionary is emptied. -/
def period : Nat := 126

/-- The codes of a picture's pixels, row by row. -/
def codes (picture : Image Nat) : ByteArray :=
  let pixels := (List.range picture.height).foldl
    (fun (out : ByteArray) y =>
      (List.range picture.width).foldl
        (fun (out : ByteArray) x =>
          let out := if (y * picture.width + x) % period = 0 then out.push emptyCode else out
          out.push (if picture.pixel x y = black then 0 else 1))
        out)
    ByteArray.empty
  pixels.push endCode

/-- Bytes in blocks of at most 255, each behind its length, and an empty block at the end. -/
def blocks (bytes : ByteArray) : ByteArray :=
  let full := (List.range ((bytes.size + 254) / 255)).foldl
    (fun (out : ByteArray) i =>
      let block := bytes.extract (i * 255) (i * 255 + 255)
      (out.push (UInt8.ofNat block.size)).append block)
    ByteArray.empty
  full.push 0

/-- A byte array with more bytes at its end. -/
def extend (bytes : ByteArray) (more : List UInt8) : ByteArray :=
  more.foldl (fun out b => out.push b) bytes

def encode (shots : List Shot) : ByteArray :=
  match shots with
  | [] => ByteArray.empty
  | first :: _ =>
    let start := extend ByteArray.empty (fileHeader first.picture.width first.picture.height)
    let body := shots.foldl
      (fun out shot =>
        ((extend out (pictureHeader shot)).push pixelBits).append (blocks (codes shot.picture)))
      start
    body.push 0x3B

end ChipEight.Animation
