import TensorGraph.Number.Format

/-!
# Floating arithmetic

Each operation is carried out exactly and rounded once. Infinities and the undefined number take
part as well, so every operation has a result.
-/

namespace TensorGraph.Number.Floating

def isZero : Floating → Bool
  | .finite _ x => x.significand = 0
  | _ => false

def neg : Floating → Floating
  | .finite negative x => .finite (!negative) x
  | .infinite negative => .infinite (!negative)
  | .undefined => .undefined

def isPositive : Floating → Bool
  | .finite negative x => !negative && x.significand ≠ 0
  | .infinite negative => !negative
  | .undefined => false

/-- The nearest number to an integer. -/
def ofInt (f : Format) (n : Int) : Floating := .ofRatio f (decide (n < 0)) n.natAbs 1

def zero (f : Format) (negative : Bool) : Floating := .finite negative ⟨0, f.least⟩

def signed (negative : Bool) (n : Nat) : Int := if negative then -n else n

/-- A sum that vanishes is a negative zero only when both numbers are. -/
def add (f : Format) : Floating → Floating → Floating
  | .finite s x, .finite t y =>
    let num := signed s (x.ratio.1 * y.ratio.2) + signed t (y.ratio.1 * x.ratio.2)
    if num = 0 then zero f (s && t)
    else .ofRatio f (decide (num < 0)) num.natAbs (x.ratio.2 * y.ratio.2)
  | .infinite s, .infinite t => if s = t then .infinite s else .undefined
  | .infinite s, .finite .. => .infinite s
  | .finite .., .infinite t => .infinite t
  | .undefined, _ => .undefined
  | _, .undefined => .undefined

def sub (f : Format) (x y : Floating) : Floating := add f x y.neg

def mul (f : Format) : Floating → Floating → Floating
  | .finite s x, .finite t y =>
    .ofRatio f (s ^^ t) (x.ratio.1 * y.ratio.1) (x.ratio.2 * y.ratio.2)
  | .infinite s, .infinite t => .infinite (s ^^ t)
  | .infinite s, .finite t y => if y.significand = 0 then .undefined else .infinite (s ^^ t)
  | .finite s x, .infinite t => if x.significand = 0 then .undefined else .infinite (s ^^ t)
  | .undefined, _ => .undefined
  | _, .undefined => .undefined

/-- A quotient by zero is infinite, or undefined when the dividend is zero too. -/
def div (f : Format) : Floating → Floating → Floating
  | .finite s x, .finite t y =>
    if y.significand = 0 then
      if x.significand = 0 then .undefined else .infinite (s ^^ t)
    else .ofRatio f (s ^^ t) (x.ratio.1 * y.ratio.2) (x.ratio.2 * y.ratio.1)
  | .infinite _, .infinite _ => .undefined
  | .infinite s, .finite t _ => .infinite (s ^^ t)
  | .finite s _, .infinite t => zero f (s ^^ t)
  | .undefined, _ => .undefined
  | _, .undefined => .undefined

theorem add_comm (f : Format) (x y : Floating) : add f x y = add f y x := by
  cases x with
  | finite s x =>
    cases y with
    | finite t y => simp only [add, Int.add_comm, Nat.mul_comm, Bool.and_comm]
    | infinite t => rfl
    | undefined => rfl
  | infinite s =>
    cases y with
    | finite t y => rfl
    | infinite t => cases s <;> cases t <;> rfl
    | undefined => rfl
  | undefined => cases y <;> rfl

theorem mul_comm (f : Format) (x y : Floating) : mul f x y = mul f y x := by
  cases x with
  | finite s x =>
    cases y with
    | finite t y => simp only [mul, Nat.mul_comm, Bool.xor_comm]
    | infinite t => simp only [mul, Bool.xor_comm]
    | undefined => rfl
  | infinite s =>
    cases y with
    | finite t y => simp only [mul, Bool.xor_comm]
    | infinite t => simp only [mul, Bool.xor_comm]
    | undefined => rfl
  | undefined => cases y <;> rfl

end TensorGraph.Number.Floating
