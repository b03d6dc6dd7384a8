import ChipEight.Number.Binary64

/-!
# The shortest decimal text of a binary number

A binary number is written with the fewest decimal digits that read back as the same number, and of the
texts with that many digits by the nearest one. `Shortest.digits` finds the digits: for each unit
`10 ^ u`, from the largest on, it tries the two neighbours of the number on the grid of that unit.
`Shortest.text` writes them out, with an exponent where the number is very large or very small.
-/

namespace ChipEight.Shortest

def digitCount (n : Nat) : Nat := (Nat.toDigits 10 n).length

/-- A fraction divided by `10 ^ unit`. -/
def descale (f : Fraction) (unit : Int) : Fraction :=
  if unit < 0 then f.times (Nat.pow 10 unit.natAbs) else f.dividedBy (Nat.pow 10 unit.natAbs)

/-- The number `n * 10 ^ unit`. -/
def onGrid (n : Nat) (unit : Int) : Fraction :=
  if unit < 0 then ⟨n, Nat.pow 10 unit.natAbs⟩ else ⟨n * Nat.pow 10 unit.natAbs, 1⟩

/-- The number of digits in front of the point. It is negative where zeros follow the point. -/
def magnitude (f : Fraction) : Int :=
  let guess : Int := (digitCount f.num : Int) - (digitCount f.den : Int)
  let scaled := descale f guess
  if scaled.num < scaled.den then guess else guess + 1

/-- Whether a multiple of a unit reads back as the given size. -/
def readsBack (f : Fraction) (unit : Int) (n : Nat) : Bool :=
  (Binary64.roundSize (onGrid n unit)).same f

/-- The multiple of a unit that reads back as the given size. Of two, the nearer one is taken. -/
def multiple? (f : Fraction) (unit : Int) : Option Nat :=
  let scaled := descale f unit
  let below := scaled.floor
  match readsBack f unit below, readsBack f unit (below + 1) with
  | true, true => some scaled.round
  | true, false => some below
  | false, true => some (below + 1)
  | false, false => none

/-- No number needs more digits. -/
def maxDigits : Nat := 17

/-- The digits of a size, as a number, and their unit. -/
def digits (f : Fraction) : Nat × Int :=
  ((List.range maxDigits).findSome? fun j =>
    let unit := magnitude f - (j + 1 : Nat)
    (multiple? f unit).map (·, unit)).getD (0, 0)

/-! ## Writing -/

/-- Numbers with more digits in front of the point are written with an exponent. -/
def maxWhole : Int := 16

/-- Numbers with as many zeros behind the point are written with an exponent. -/
def maxZeros : Int := 4

def zeros (count : Int) : List Char := List.replicate count.toNat '0'

/-- An exponent, with its sign and at least two digits. -/
def exponentText (e : Int) : List Char :=
  let size := toString e.natAbs
  'e' :: (if e < 0 then '-' else '+') :: (zeros (2 - size.length) ++ size.toList)

/-- Digits with the point behind the first `whole` ones. -/
def place (ds : List Char) (whole : Int) : List Char :=
  if whole ≤ -maxZeros ∨ maxWhole < whole then
    ds.take 1 ++ (if ds.length ≤ 1 then [] else '.' :: ds.drop 1) ++ exponentText (whole - 1)
  else if whole ≤ 0 then '0' :: '.' :: (zeros (-whole) ++ ds)
  else if (ds.length : Int) ≤ whole then ds ++ zeros (whole - ds.length) ++ ['.', '0']
  else ds.take whole.toNat ++ '.' :: ds.drop whole.toNat

def sizeText (f : Fraction) : String :=
  if f.num = 0 then "0.0"
  else
    let (n, unit) := digits f
    let ds := Nat.toDigits 10 n
    String.ofList (place (ds.reverse.dropWhile (· = '0')).reverse (ds.length + unit))

def text (x : Binary64) : String :=
  (if x.isNegative then "-" else "") ++
    match x with
    | .finite _ size => sizeText size
    | .infinite _ => "inf"
    | .undefined => "nan"

end ChipEight.Shortest
