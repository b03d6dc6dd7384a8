import ChipEight.Number.Shortest

/-!
# Quantities

Times and frequencies are whole numbers, which are exact, or measured ones, which are binary. A whole
number that is divided becomes a binary one, and so does one that is added to a binary one.
`Quantity.rate` is the number of events in a time.
-/

namespace ChipEight

/-- A number that is exact or measured. -/
inductive Quantity
  | whole (value : Int)
  | measured (value : Binary64)
  deriving DecidableEq

namespace Quantity

def text : Quantity → String
  | whole value => toString value
  | measured value => Shortest.text value

/-! ## Reading -/

def digitsValue (digits : List Char) : Nat :=
  digits.foldl (fun n c => 10 * n + (c.toNat - '0'.toNat)) 0

/-- The integer of decimal digits with a sign in front of them or none. -/
def signedValue : List Char → Int
  | '-' :: rest => -(digitsValue rest : Int)
  | '+' :: rest => digitsValue rest
  | rest => digitsValue rest

/-- Whether a character stands in front of an exponent. -/
def isExponentMark (c : Char) : Bool := c = 'e' || c = 'E'

/-- Reads a number: digits with a minus sign or none are a whole one, and what has a point or an exponent
is a measured one. -/
def read (text : List Char) : Quantity :=
  if text.all fun c => c.isDigit || c = '-' then whole (signedValue text)
  else
    let negative := text.head? = some '-'
    let size := if negative then text.drop 1 else text
    let digits := size.takeWhile (!isExponentMark ·)
    let exponent := signedValue ((size.dropWhile (!isExponentMark ·)).drop 1)
    let places := (digits.dropWhile (· ≠ '.')).drop 1
    measured
      (Binary64.ofDecimal negative (digitsValue (digits.takeWhile (· ≠ '.') ++ places))
        (exponent - places.length))

/-! ## Parts and multiples -/

/-- The whole part of `n` times the quantity. -/
def times (quantity : Quantity) (n : Nat) : Except Binary64.WholeError Int :=
  match quantity with
  | whole value => .ok (value * n)
  | measured value => (value.scale n 1).truncate

/-- The sum of `n` times the same quantity, added one after the other. -/
def total (quantity : Quantity) (n : Nat) : Quantity :=
  match quantity with
  | whole value => whole (value * n)
  | measured value => measured (value.total n)

/-- Why there is no part of a quantity. -/
inductive PartError
  /-- The quantity is whole, and what comes out is beyond all binary numbers. -/
  | tooLarge
  /-- No integer comes near to what comes out. -/
  | notWhole (error : Binary64.WholeError)
  deriving DecidableEq

def PartError.message : PartError → String
  | tooLarge => "integer division result too large for a float"
  | notWhole error => error.message

/-- The whole part of the quantity divided by `n`. -/
def part (quantity : Quantity) (n : Nat) : Except PartError Int :=
  match quantity with
  | whole value => (Binary64.nearest (value < 0) ⟨value.natAbs, n⟩).truncate.mapError fun _ => .tooLarge
  | measured value => (value.scale 1 n).truncate.mapError .notWhole

/-! ## Times on a clock that shows whole numbers -/

/-- The time that comes a quantity after a whole one. There is none after a whole number beyond all binary
ones, if the quantity is measured. -/
def after (quantity : Quantity) (start : Int) : Option Quantity :=
  match quantity with
  | whole value => some (whole (start + value))
  | measured value => (Binary64.ofInt? start).map fun start => measured (start.plus value)

/-- Whether a time is over when the clock shows a whole number. -/
def isOver (time : Quantity) (clock : Int) : Bool :=
  match time with
  | whole value => value ≤ clock
  | measured value => value.atMost clock

/-! ## Rates -/

/-- A time of no length has no rate. -/
inductive RateError
  | wholeZero
  | measuredZero
  deriving DecidableEq

def RateError.message : RateError → String
  | wholeZero => "division by zero"
  | measuredZero => "float division by zero"

/-- How many of `count` events there were in a unit of a time. -/
def rate (count : Nat) (time : Quantity) : Except RateError Binary64 :=
  match time with
  | whole value =>
    if value = 0 then .error .wholeZero
    else .ok (Binary64.nearest (value < 0) ⟨count, value.natAbs⟩)
  | measured value =>
    if value.isZero then .error .measuredZero else .ok (Binary64.under count value)

end Quantity

end ChipEight
