import TensorGraph.Number.Decimal

/-!
# Sizes in bytes

A size is written in the largest binary unit in which it is at least one, with three digits, or
with all digits before the point when there are more.
-/

namespace TensorGraph.Number

def byteUnits : List String := ["bytes", "KiB", "MiB", "GiB", "TiB", "PiB", "EiB"]

/-- A quotient below 1000 with three digits, of which one at least stands before the point. -/
def threeDigits (num den : Nat) : String :=
  let places := if num < 10 * den then 2 else if num < 100 * den then 1 else 0
  let scaled := roundDiv (num * Nat.pow 10 places) den
  -- Rounding up may give one digit more before the point, which takes a place after it.
  let places := if 1000 ≤ scaled then places - 1 else places
  let scaled := roundDiv (num * Nat.pow 10 places) den
  let digits := Nat.toDigits 10 scaled
  String.ofList
    (digits.take (digits.length - places) ++ '.' :: digits.drop (digits.length - places))

/-- A size that rounds up to 1024 of a unit is one of the next unit. -/
def byteText (bytes : Nat) : String :=
  let unit := max 1 bytes.log2 / 10
  -- The size as a floating number of the unit.
  let nearest := (binary64.round? bytes (Nat.pow 2 (10 * unit))).map Magnitude.ratio
  let (num, den) := nearest.getD (bytes, 1)
  let (unit, den) := if roundDiv num den = 1024 then (unit + 1, den * 1024) else (unit, den)
  let last := byteUnits.length - 1
  let (unit, num) := if last < unit then (last, num * Nat.pow 1024 (unit - last)) else (unit, num)
  let whole := roundDiv num den
  let amount :=
    if unit = 0 then toString whole
    else if whole < 1000 then threeDigits num den
    else toString whole ++ "."
  amount ++ " " ++ byteUnits.getD unit ""

example : byteText (4 * 2 ^ 60) = "4.00 EiB" := by decide +kernel
example : byteText (2 ^ 40 - 1) = "1.00 TiB" := by decide +kernel
example : byteText 1000000000 = "954. MiB" := by decide +kernel

end TensorGraph.Number
