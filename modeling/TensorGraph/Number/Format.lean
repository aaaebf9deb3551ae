/-!
# Binary floating formats

A format keeps the magnitudes `m * 2 ^ e` whose significand has at most `digits` binary digits and
whose exponent lies between `least` and `greatest`. Every nonnegative rational has a nearest
magnitude; a tie goes to the even significand. Magnitudes beyond the greatest one have none.
-/

namespace TensorGraph.Number

/-- The number `significand * 2 ^ exponent`. -/
structure Magnitude where
  significand : Nat
  exponent : Int
deriving DecidableEq, Repr, Inhabited

namespace Magnitude

/-- The magnitude as a quotient of natural numbers. -/
def ratio (x : Magnitude) : Nat × Nat :=
  if x.exponent < 0 then (x.significand, Nat.pow 2 (-x.exponent).toNat)
  else (x.significand * Nat.pow 2 x.exponent.toNat, 1)

/-- The magnitude as a natural number, when it is one. -/
def nat? (x : Magnitude) : Option Nat :=
  let (num, den) := x.ratio
  if num % den = 0 then some (num / den) else none

end Magnitude

structure Format where
  digits : Nat
  least : Int
  greatest : Int
deriving DecidableEq, Repr

def binary64 : Format := ⟨53, -1074, 971⟩

def binary32 : Format := ⟨24, -149, 104⟩

/-- The nearest natural number to `num / den`, an even one on a tie. -/
def roundDiv (num den : Nat) : Nat :=
  let q := num / den
  let twice := 2 * (num % den)
  if twice < den then q
  else if den < twice then q + 1
  else if q % 2 = 0 then q else q + 1

/-- The exponent `k` with `2 ^ k ≤ num / den < 2 ^ (k + 1)`, for positive arguments. -/
def binaryOrder (num den : Nat) : Int :=
  let k : Int := (num.log2 : Int) - den.log2
  let reaches : Bool :=
    if 0 ≤ k then den * Nat.pow 2 k.toNat ≤ num else den ≤ num * Nat.pow 2 (-k).toNat
  if reaches then k else k - 1

namespace Format

/-- The exponent of the unit in which `num / den` is measured. -/
def unit (f : Format) (num den : Nat) : Int :=
  max f.least (binaryOrder num den - (f.digits - 1))

/-- The nearest magnitude to `num / den`, or nothing when it lies beyond the format. -/
def round? (f : Format) (num den : Nat) : Option Magnitude :=
  if num = 0 then some ⟨0, f.least⟩
  else
    let e := f.unit num den
    let m :=
      if 0 ≤ e then roundDiv num (den * Nat.pow 2 e.toNat)
      else roundDiv (num * Nat.pow 2 (-e).toNat) den
    let x : Magnitude := if m = Nat.pow 2 f.digits then ⟨Nat.pow 2 (f.digits - 1), e + 1⟩ else ⟨m, e⟩
    if f.greatest < x.exponent then none else some x

end Format

/-- A floating number of some format: signed, infinite, or undefined. -/
inductive Floating where
  | finite (negative : Bool) (magnitude : Magnitude)
  | infinite (negative : Bool)
  | undefined
deriving DecidableEq, Repr, Inhabited

namespace Floating

/-- The nearest number of the format, infinite beyond its greatest magnitude. -/
def ofRatio (f : Format) (negative : Bool) (num den : Nat) : Floating :=
  match f.round? num den with
  | some x => .finite negative x
  | none => .infinite negative

/-- A number of one format carried to another. -/
def convert (f : Format) : Floating → Floating
  | .finite negative x => ofRatio f negative x.ratio.1 x.ratio.2
  | x => x

/-- The integer that the number is, when it is one. -/
def int? : Floating → Option Int
  | .finite negative x => x.nat?.map fun n => if negative then -n else n
  | _ => none

/-- The word of 32 bits of a number in `binary32`; an undefined number has none. -/
def word32? : Floating → Option UInt32
  | .finite negative x =>
    let sign : Nat := if negative then Nat.pow 2 31 else 0
    let body : Nat :=
      if x.significand < Nat.pow 2 23 then x.significand
      else (x.exponent - binary32.least + 1).toNat * Nat.pow 2 23 + (x.significand - Nat.pow 2 23)
    some (UInt32.ofNat (sign + body))
  | .infinite negative => some (if negative then 0xff800000 else 0x7f800000)
  | .undefined => none

end Floating

/-- Rounding is within half a unit. -/
theorem roundDiv_bounds (num : Nat) {den : Nat} (h : 0 < den) :
    2 * num ≤ 2 * (roundDiv num den * den) + den ∧
      2 * (roundDiv num den * den) ≤ 2 * num + den := by
  have hd := Nat.div_add_mod num den
  have hm := Nat.mod_lt num h
  have hq : (num / den + 1) * den = num / den * den + den := Nat.succ_mul ..
  rw [Nat.mul_comm] at hd
  unfold roundDiv
  dsimp only
  split
  · omega
  · split
    · rw [hq]; omega
    · split
      · omega
      · rw [hq]; omega

example : binary64.round? 1 10 = some ⟨7205759403792794, -56⟩ := by decide
example : binary32.round? 16777217 1 = some ⟨2 ^ 23, 1⟩ := by decide
example : (Floating.ofRatio binary32 true 1 10).word32? = some 0xbdcccccd := by decide

end TensorGraph.Number
