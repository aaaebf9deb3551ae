import TensorGraph.Error
import TensorGraph.Op.Basic
import TensorGraph.Value.Comparison

/-!
# Reading operations

Operations made from loosely typed parameters, and the questions that can fail: a value that is no
operation has neither name nor arity, one that holds a list cannot be looked up at all, and not all
parameters can be compared.
-/

namespace TensorGraph

/-- A border that is no fill has no name. -/
def Border.name : Border → Except Error String
  | .fill f => .ok f.name
  | .value v => .error (.noAttribute v.typeName "value")

namespace Op

/-- A permutation takes any sequence of axes. -/
def permuteOf (axes : Value) : Except Error Op :=
  match axes.items? with
  | some axes => .ok (.permute axes)
  | none => .error (.notIterable axes.typeName)

/-- The name under which messages and exports know the operation. -/
def name (digits : Option Nat) : Op → Except Error String
  | .primitive p => .ok p.name
  | .broadcast axis count => do
    let axis ← axis.shown digits
    let count ← count.shown digits
    return "BROADCAST(axis=" ++ axis ++ ",count=" ++ count ++ ")"
  | .cat axis => do
    let axis ← axis.shown digits
    return "CAT(axis=" ++ axis ++ ")"
  | .flip axis => do
    let axis ← axis.shown digits
    return "FLIP(axis=" ++ axis ++ ")"
  | .permute axes => do
    let axes ← axes.mapM (Value.shown digits)
    return "PERMUTE(" ++ ",".intercalate axes ++ ")"
  | .pad axis amount border => do
    let axis ← axis.shown digits
    let amount ← amount.shown digits
    let kind ← border.name
    return "PAD(axis=" ++ axis ++ ",amt=" ++ amount ++ ",kind=" ++ kind ++ ")"

/-- The parameters of operations of one class are compared in their order, and the fill last. -/
def equals (a b : Op) : Except Error Bool :=
  if a.tag.head? = b.tag.head? then
    (Value.equalItems a.parameters b.parameters).map fun eq => eq && a.tag == b.tag
  else .ok false

namespace Candidate

def hasList : Candidate → Bool
  | .op o => o.hasList
  | .other v => v.hasList

def name (digits : Option Nat) : Candidate → Except Error String
  | .op o => o.name digits
  | .other v => .error (.notAnOp v)

/-- The number of sources: 1 or 2. -/
def sourceCount (c : Candidate) : Except Error Nat :=
  if c.hasList then .error (.unhashable ⟨"list", none⟩)
  else
    match c with
    | .op o => .ok o.sourceCount
    | .other v => .error (.notAnOp v)

/-- The group of a primitive; no other operation belongs to one. -/
def group? (c : Candidate) : Except Error (Option Primitive.Group) :=
  if c.hasList then .error (.unhashable ⟨"list", none⟩)
  else
    match c with
    | .op (.primitive p) => .ok (some p.group)
    | _ => .ok none

/-- An operation equals no value. -/
def equals : Candidate → Candidate → Except Error Bool
  | .op a, .op b => a.equals b
  | .other a, .other b => a.equals b
  | _, _ => .ok false

/-- Candidates that are equal agree when they are also looked up under the same signature, which one
that holds a list never is. -/
def agrees (c d : Candidate) : Except Error Bool := do
  if c.hasList || d.hasList then return false
  else if !(← d.equals c) then return false
  else
    match c, d with
    | .op a, .op b => return a.signature == b.signature
    | _, _ => return false

/-- The position of the first candidate that agrees with the one at a position, which agrees with
itself. All candidates before it that can be looked up are compared with it, so one of these that
cannot be compared is an error. -/
def firstAgreeing (cs : List Candidate) (position : Nat) : Except Error Nat :=
  match cs[position]? with
  | none => .ok position
  | some c => do
    let agreeing ← (cs.take (position + 1)).zipIdx.filterMapM fun (d, i) => do
      if i = position then return some i
      else return if ← c.agrees d then some i else none
    return agreeing.headD position

end Candidate

end Op

end TensorGraph
