import TensorGraph.Graph.Operators
import TensorGraph.Graph.Reach

/-!
# Gradient rules

The gradient of an operand is built from the gradient of its user by a recipe. Recipes are data,
so the same rule can be carried out by appending nodes, or be read in any other structure that has
the four operations.
-/

namespace TensorGraph

inductive Recipe where
  /-- The gradient of the node itself. -/
  | gradient
  /-- The node itself. -/
  | node
  | operand (x : Nat)
  | neg (r : Recipe)
  | mul (r s : Recipe)
  | div (r s : Recipe)
  /-- A zero leaf of the same shape. -/
  | zeroLike (r : Recipe)
deriving DecidableEq, Repr, Inhabited

/-- The operations in which recipes are carried out. -/
structure Algebra (m : Type → Type) (α : Type) where
  neg : α → m α
  mul : α → α → m α
  div : α → α → m α
  zeroLike : α → m α

namespace Recipe

def carryOut {m : Type → Type} [Monad m] {α : Type} (alg : Algebra m α) (gradient node : α)
    (operand : Nat → α) : Recipe → m α
  | .gradient => pure gradient
  | .node => pure node
  | .operand x => pure (operand x)
  | .neg r => do
    let x ← carryOut alg gradient node operand r
    alg.neg x
  | .mul r s => do
    let x ← carryOut alg gradient node operand r
    let y ← carryOut alg gradient node operand s
    alg.mul x y
  | .div r s => do
    let x ← carryOut alg gradient node operand r
    let y ← carryOut alg gradient node operand s
    alg.div x y
  | .zeroLike r => do
    let x ← carryOut alg gradient node operand r
    alg.zeroLike x

end Recipe

/-- The operands of a node, each with the recipe of its gradient. The reciprocal `y` of `x` has
derivative `-y * y` and uses the node itself; the step function contributes nothing. -/
def Form.rules : Form → List (Nat × Recipe)
  | .leaf _ => []
  | .binary .add l r => [(l, .gradient), (r, .gradient)]
  | .binary .mul l r => [(l, .mul .gradient (.operand r)), (r, .mul .gradient (.operand l))]
  | .unary .neg x => [(x, .neg .gradient)]
  | .unary .reciprocal x => [(x, .mul (.mul (.neg .gradient) .node) .node)]
  | .unary .exp x => [(x, .mul .gradient .node)]
  | .unary .log x => [(x, .div .gradient (.operand x))]
  | .unary .gtz x => [(x, .zeroLike (.operand x))]

/-- The left-nested sum of contributions. Zero leaves are left out, unless there is nothing else:
then the first of them is the sum. -/
def accumulate {m : Type → Type} [Monad m] [MonadExceptOf Error m] {α : Type} (isZero : α → Bool)
    (add : α → α → m α) (contributions : List α) : m α :=
  match contributions.filter fun g => !isZero g with
  | g :: gs => gs.foldlM add g
  | [] =>
    match contributions with
    | [] => throw .emptySum
    | g :: _ => pure g

namespace Arena

/-- A newly built node as a handle. -/
def handle (x : Build Nat) : Build Int := fun a =>
  match x a with
  | .ok i a => .ok i a
  | .error e a => .error e a

/-- Recipes carried out by appending nodes. -/
def algebra : Algebra Build Int where
  neg x := handle (unary .neg x)
  mul x y := handle (binary .mul x y)
  div x y := handle (div x y)
  zeroLike x := handle (zeroLike x)

/-- The sum of contributions, which have to refer to nodes, appending its own nodes. -/
def sum (contributions : List Int) : Build Int := do
  contributions.forM fun g => do
    let _ ← nodeAt g
  fun a => accumulate a.isZero (fun x y => handle (binary .add x y)) contributions a

end Arena

/-- The rules of a node name its operands in order. -/
theorem Form.rules_operands (f : Form) : f.rules.map Prod.fst = f.operands := by
  cases f with
  | leaf k => rfl
  | unary k x => cases k <;> rfl
  | binary k l r => cases k <;> rfl

end TensorGraph
