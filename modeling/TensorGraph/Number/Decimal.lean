import TensorGraph.Number.Format

/-!
# Shortest decimals

A floating number is written with the fewest digits that read back as the same number, and among
those with the digits nearest to it. For each count of digits only the two neighbours of the
number on the grid of that count can be nearest, so only they are tried.
-/

namespace TensorGraph.Number

/-- The number `digits * 10 ^ exponent`. -/
structure Decimal where
  digits : Nat
  exponent : Int
deriving DecidableEq, Repr, Inhabited

namespace Decimal

def ratio (d : Decimal) : Nat × Nat :=
  if d.exponent < 0 then (d.digits, Nat.pow 10 (-d.exponent).toNat)
  else (d.digits * Nat.pow 10 d.exponent.toNat, 1)

/-- The nearest number of the format. An exponent far outside every format is not multiplied out. -/
def toFloating (f : Format) (negative : Bool) (d : Decimal) : Floating :=
  let order := d.exponent + ((Nat.toDigits 10 d.digits).length : Int)
  if d.digits = 0 ∨ order < -400 then .finite negative ⟨0, f.least⟩
  else if 400 < order then .infinite negative
  else .ofRatio f negative d.ratio.1 d.ratio.2

/-- The decimal without the zeros at its end, at most `n` of them. -/
def dropZeros : Nat → Decimal → Decimal
  | 0, d => d
  | n + 1, d =>
    if d.digits ≠ 0 ∧ d.digits % 10 = 0 then dropZeros n ⟨d.digits / 10, d.exponent + 1⟩ else d

end Decimal

/-- The place `k` with `10 ^ (k - 1) ≤ num / den < 10 ^ k`, for positive arguments. -/
def decimalOrder (num den : Nat) : Int :=
  let k : Int := ((Nat.toDigits 10 num).length : Int) - (Nat.toDigits 10 den).length
  let reaches : Bool :=
    if 0 ≤ k then den * Nat.pow 10 k.toNat ≤ num else den ≤ num * Nat.pow 10 (-k).toNat
  if reaches then k + 1 else k

namespace Format

/-- The decimal reads back as the magnitude. -/
def readsBack (f : Format) (x : Magnitude) (d : Decimal) : Bool :=
  f.round? d.ratio.1 d.ratio.2 = some x

/-- The decimal with `count` digits that reads back as the magnitude, the nearer of two. -/
def ofDigitCount? (f : Format) (x : Magnitude) (count : Nat) : Option Decimal :=
  let (num, den) := x.ratio
  let k := decimalOrder num den - count
  let num := if k < 0 then num * Nat.pow 10 (-k).toNat else num
  let den := if k < 0 then den else den * Nat.pow 10 k.toNat
  let below : Decimal := ⟨num / den, k⟩
  let above : Decimal := ⟨num / den + 1, k⟩
  let nearest : Decimal := ⟨roundDiv num den, k⟩
  if f.readsBack x below && f.readsBack x above then some nearest
  else if f.readsBack x below then some below
  else if f.readsBack x above then some above
  else none

/-- The shortest decimal of a magnitude; 17 digits are enough for `binary64`. -/
def shortest (f : Format) (x : Magnitude) : Decimal :=
  if x.significand = 0 then ⟨0, 0⟩
  else
    match (List.range 17).findSome? fun i => f.ofDigitCount? x (i + 1) with
    | some d => d.dropZeros 17
    | none => ⟨x.ratio.1, 0⟩

end Format

/-- Digits with a point when the first of them stands between the fourth place after the point and
the sixteenth before it, and with an exponent of at least two digits otherwise. -/
def Decimal.text (d : Decimal) : String :=
  let ds := Nat.toDigits 10 d.digits
  let n := ds.length
  let point : Int := d.exponent + n
  let zeros (k : Int) : List Char := List.replicate k.toNat '0'
  let body : List Char :=
    if d.digits = 0 then ['0', '.', '0']
    else if -4 < point ∧ point ≤ 0 then '0' :: '.' :: zeros (-point) ++ ds
    else if 0 < point ∧ point < n then ds.take point.toNat ++ '.' :: ds.drop point.toNat
    else if 0 < point ∧ point ≤ 16 then ds ++ zeros (point - n) ++ ['.', '0']
    else
      let order := point - 1
      let places := Nat.toDigits 10 order.natAbs
      ds.take 1 ++ (if n = 1 then [] else '.' :: ds.drop 1) ++ ['e', if order < 0 then '-' else '+']
        ++ List.replicate (2 - places.length) '0' ++ places
  String.ofList body

/-- The text of a `binary64` number. -/
def Floating.text : Floating → String
  | .finite negative x => (if negative then "-" else "") ++ (binary64.shortest x).text
  | .infinite negative => if negative then "-inf" else "inf"
  | .undefined => "nan"

end TensorGraph.Number
