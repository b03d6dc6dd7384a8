/-!
# Numbers with 53 significant bits

Times, rates and intervals are measured in binary numbers with 53 significant bits and exponents from
-1074 on. A quotient is taken to the nearest such number, and to the even one of two that are as near;
what is beyond the largest one is infinite. A finite number is held as an exact fraction with a sign, so
that sums and comparisons with integers are those of fractions. One number more stands for results that
there are none of.
-/

namespace ChipEight

/-- The quotient of two numbers to the nearest whole one, a half to the even neighbour. -/
def roundHalfEven (num den : Nat) : Nat :=
  let q := num / den
  let r := num % den
  if 2 * r < den then q
  else if 2 * r > den then q + 1
  else q + q % 2

/-! ## Fractions -/

/-- A fraction of natural numbers. -/
structure Fraction where
  num : Nat
  den : Nat
  deriving DecidableEq

namespace Fraction

def times (f : Fraction) (n : Nat) : Fraction := ⟨f.num * n, f.den⟩

/-- A part of a fraction. -/
def dividedBy (f : Fraction) (n : Nat) : Fraction := ⟨f.num, f.den * n⟩

/-- A number divided by a fraction. -/
def under (f : Fraction) (n : Nat) : Fraction := ⟨n * f.den, f.num⟩

/-- Whether two fractions stand for the same number. -/
def same (f g : Fraction) : Bool := f.num * g.den == g.num * f.den

/-- The nearest whole number, a half to the even neighbour. -/
def round (f : Fraction) : Nat := roundHalfEven f.num f.den

def floor (f : Fraction) : Nat := f.num / f.den

/-- Written with one decimal place, a half to the even neighbour. -/
def oneDecimal (f : Fraction) : String :=
  let tenths := (f.times 10).round
  toString (tenths / 10) ++ "." ++ toString (tenths % 10)

end Fraction

/-- An integer by its sign and its size. -/
def signed (negative : Bool) (size : Nat) : Int := if negative then -(size : Int) else size

/-! ## Binary numbers -/

/-- A binary number: finite with its exact size, beyond all finite ones, or none at all. Zero has a sign
too. -/
inductive Binary64
  | finite (negative : Bool) (size : Fraction)
  | infinite (negative : Bool)
  | undefined
  deriving DecidableEq

namespace Binary64

def minExponent : Int := -1074

/-- The number `significand * 2 ^ exponent`. -/
def fraction (significand : Nat) (exponent : Int) : Fraction :=
  if exponent < 0 then ⟨significand, Nat.pow 2 exponent.natAbs⟩
  else ⟨significand * Nat.pow 2 exponent.natAbs, 1⟩

/-- A fraction divided by `2 ^ exponent`. -/
def descale (f : Fraction) (exponent : Int) : Fraction :=
  if exponent < 0 then f.times (Nat.pow 2 exponent.natAbs) else f.dividedBy (Nat.pow 2 exponent.natAbs)

/-- The exponent with which a fraction has 53 bits in front of the point, or the smallest one. -/
def exponent (f : Fraction) : Int :=
  let guess : Int := (f.num.log2 : Int) - (f.den.log2 : Int) - 52
  let scaled := descale f guess
  max minExponent (if scaled.num < scaled.den * Nat.pow 2 52 then guess - 1 else guess)

/-- The nearest size to a fraction, as if there were no largest one. -/
def roundSize (f : Fraction) : Fraction :=
  if f.num = 0 then ⟨0, 1⟩
  else
    let e := exponent f
    fraction (descale f e).round e

/-- The nearest binary number to a fraction with a sign. -/
def nearest (negative : Bool) (f : Fraction) : Binary64 :=
  let size := roundSize f
  if size.num ≥ size.den * Nat.pow 2 1024 then infinite negative else finite negative size

/-- The nearest binary number to `digits * 10 ^ exponent` with a sign. -/
def ofDecimal (negative : Bool) (digits : Nat) (exponent : Int) : Binary64 :=
  nearest negative
    (if exponent < 0 then ⟨digits, Nat.pow 10 exponent.natAbs⟩
    else ⟨digits * Nat.pow 10 exponent.natAbs, 1⟩)

/-- The nearest binary number to an integer, if that is a finite one. -/
def ofInt? (n : Int) : Option Binary64 :=
  match nearest (n < 0) ⟨n.natAbs, 1⟩ with
  | finite negative size => some (finite negative size)
  | _ => none

def isNegative : Binary64 → Bool
  | finite negative _ | infinite negative => negative
  | undefined => false

def isZero : Binary64 → Bool
  | finite _ size => size.num == 0
  | infinite _ | undefined => false

/-- The nearest number to `x * num / den`. -/
def scale (x : Binary64) (num den : Nat) : Binary64 :=
  match x with
  | finite negative size => nearest negative ((size.times num).dividedBy den)
  | infinite negative => infinite negative
  | undefined => undefined

/-- The nearest number to a sum. A sum of zeros is negative if both are, and there is no sum of two
infinite numbers with different signs. -/
def plus : Binary64 → Binary64 → Binary64
  | finite negative size, finite negative' size' =>
    let num := signed negative (size.num * size'.den) + signed negative' (size'.num * size.den)
    nearest (if num = 0 then negative && negative' else num < 0) ⟨num.natAbs, size.den * size'.den⟩
  | infinite negative, infinite negative' =>
    if negative = negative' then infinite negative else undefined
  | infinite negative, finite .. | finite .., infinite negative => infinite negative
  | undefined, _ | _, undefined => undefined

/-- The sum of `n` times the same number, added one after the other: each sum is taken to the nearest
number before the next one is added. -/
def total (x : Binary64) : Nat → Binary64
  | 0 => finite x.isNegative ⟨0, 1⟩
  | n + 1 => (total x n).plus x

/-- Whether a number is at most as large as an integer. -/
def atMost (x : Binary64) (n : Int) : Bool :=
  match x with
  | finite negative size => signed negative size.num ≤ n * size.den
  | infinite negative => negative
  | undefined => false

/-- The nearest number to `n / x`, where `x` is not zero. -/
def under (n : Nat) (x : Binary64) : Binary64 :=
  match x with
  | finite negative size => nearest negative (size.under n)
  | infinite negative => finite negative ⟨0, 1⟩
  | undefined => undefined

/-- A number that no integer comes near to. -/
inductive WholeError
  | infinite
  | undefined
  deriving DecidableEq

def WholeError.message : WholeError → String
  | infinite => "cannot convert float infinity to integer"
  | undefined => "cannot convert float NaN to integer"

/-- The nearest integer, a half to the even neighbour. -/
def round : Binary64 → Except WholeError Int
  | finite negative size => .ok (signed negative size.round)
  | infinite _ => .error .infinite
  | undefined => .error .undefined

/-- The next integer towards zero. -/
def truncate : Binary64 → Except WholeError Int
  | finite negative size => .ok (signed negative size.floor)
  | infinite _ => .error .infinite
  | undefined => .error .undefined

/-- Written with one decimal place, a half to the even neighbour. -/
def oneDecimal (x : Binary64) : String :=
  (if x.isNegative then "-" else "") ++
    match x with
    | finite _ size => size.oneDecimal
    | infinite _ => "inf"
    | undefined => "nan"

end Binary64

end ChipEight
