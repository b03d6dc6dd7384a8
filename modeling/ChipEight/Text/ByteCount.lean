import ChipEight.Number.Binary64
import ChipEight.Text.Hex

/-!
# Counts of bytes

A count of bytes is written in the largest binary unit that it fills, with three digits. The point stays
even where no digit stands behind it, and what has four digits in front of the point keeps them all.
-/

namespace ChipEight.Text

/-- The units, each 1024 times the one before. -/
def byteUnits : Array String := #["bytes", "KiB", "MiB", "GiB", "TiB", "PiB", "EiB"]

/-- A number of hundredths or tenths, with the point in front of the last `places` digits. -/
def withPoint (places n : Nat) : String :=
  let scale := Nat.pow 10 places
  toString (n / scale) ++ "." ++
    if places = 0 then "" else zeroFill places (toString (n % scale))

/-- Three digits of an amount between 1 and 1000. -/
def threeDigits (amount : Fraction) : String :=
  let hundredths := (amount.times 100).round
  let tenths := (amount.times 10).round
  if hundredths < 1000 then withPoint 2 hundredths
  else if tenths < 1000 then withPoint 1 tenths
  else withPoint 0 amount.round

/-- The number of the largest unit that a count fills. -/
def unitOf (count : Nat) : Nat := max count.log2 1 / 10

/-- A count of bytes in its unit. What comes to 1024 units by rounding is one of the next unit. -/
def byteCount (count : Nat) : String :=
  let unit := unitOf count
  let amount := Binary64.roundSize ⟨count, Nat.pow 1024 unit⟩
  let (unit, amount) := if amount.round = 1024 then (unit + 1, amount.dividedBy 1024) else (unit, amount)
  let last := byteUnits.size - 1
  let (unit, amount) :=
    if last < unit then (last, amount.times (Nat.pow 1024 (unit - last))) else (unit, amount)
  let digits :=
    if unit = 0 then toString amount.round
    else if amount.round < 1000 then threeDigits amount
    else withPoint 0 amount.round
  digits ++ " " ++ byteUnits.getD unit ""

end ChipEight.Text
