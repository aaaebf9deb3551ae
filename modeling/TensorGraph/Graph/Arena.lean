import TensorGraph.Shape.Reading

/-!
# Arenas

An arena stores the nodes of an expression graph. It only grows, and a node refers to nodes that
were there before it, so operands have smaller indices than their users and no cycle can be built.
-/

namespace TensorGraph

/-- What a node computes, and from which nodes. -/
inductive Form where
  | leaf (k : Leaf)
  | unary (k : Unary) (operand : Nat)
  | binary (k : Binary) (left right : Nat)
deriving DecidableEq, Repr, Inhabited

namespace Form

def kind : Form → Kind
  | .leaf k => .leaf k
  | .unary k _ => .unary k
  | .binary k _ _ => .binary k

def operands : Form → List Nat
  | .leaf _ => []
  | .unary _ x => [x]
  | .binary _ l r => [l, r]

/-- The form of a kind with the given operands, when their number fits. -/
def of? : Kind → List Nat → Option Form
  | .leaf k, [] => some (.leaf k)
  | .unary k, [x] => some (.unary k x)
  | .binary k, [l, r] => some (.binary k l r)
  | _, _ => none

theorem of?_eq_some_iff {k : Kind} {xs : List Nat} {f : Form} :
    of? k xs = some f ↔ f.kind = k ∧ f.operands = xs := by
  constructor
  · intro h
    unfold of? at h
    split at h <;> first | (cases h; exact ⟨rfl, rfl⟩) | cases h
  · rintro ⟨rfl, rfl⟩
    cases f <;> rfl

end Form

structure Node where
  form : Form
  shape : Shape
  name : Option String
deriving DecidableEq, Repr, Inhabited

namespace Node

def kind (n : Node) : Kind := n.form.kind

def operands (n : Node) : List Nat := n.form.operands

end Node

structure Arena where
  nodes : Array Node
deriving Repr, Inhabited

/-- Building in one arena: what was appended before an error stays. -/
abbrev Build := EStateM Error Arena

namespace Arena

def empty : Arena := ⟨#[]⟩

def size (a : Arena) : Nat := a.nodes.size

def node? (a : Arena) (i : Nat) : Option Node := a.nodes[i]?

/-- The node that a handle refers to. A negative index counts from the end. -/
def at? (a : Arena) (i : Int) : Option Node :=
  if 0 ≤ i then a.node? i.toNat
  else if -(a.size : Int) ≤ i then a.node? (i + a.size).toNat
  else none

def operands (a : Arena) (i : Nat) : List Nat := ((a.node? i).map Node.operands).getD []

/-- Operands come before their users. -/
def WellFormed (a : Arena) : Prop :=
  ∀ i n, a.node? i = some n → ∀ c ∈ n.operands, c < i

/-- Every node of `a` is the same node of `b`. -/
def Extends (a b : Arena) : Prop :=
  ∀ i n, a.node? i = some n → b.node? i = some n

def push (a : Arena) (n : Node) : Arena := ⟨a.nodes.push n⟩

/-- The node that loosely typed arguments describe. The number of operands is checked first, then
each operand, then the shape. -/
def newNode (a : Arena) (kind : Kind) (operands : List Int) (shape : Value)
    (name : Option String) : Except Error Node :=
  match Form.of? kind (operands.map Int.toNat) with
  | none => .error (.operandCount kind operands.length)
  | some form =>
    match operands.find? fun c : Int => !(decide (0 ≤ c) && decide (c < a.size)) with
    | some c => .error (.noSuchOperand c)
    | none => (Shape.ofValue shape).map fun s => ⟨form, s, name⟩

/-- Appends a node and gives its index. -/
def append (n : Node) : Build Nat := fun a => .ok a.size (a.push n)

def add (kind : Kind) (operands : List Int) (shape : Value) (name : Option String) : Build Nat :=
  fun a =>
    match a.newNode kind operands shape name with
    | .ok n => append n a
    | .error e => .error e a

def param (shape : Value) (name : Option String) : Build Nat := add .param [] shape name

def zero (shape : Value) : Build Nat := add .zero [] shape none

/-- The node of a handle, which has to refer to one. -/
def nodeAt (i : Int) : Build Node := fun a =>
  match a.at? i with
  | some n => .ok n a
  | none => .error (.absent i) a

theorem Extends.refl (a : Arena) : a.Extends a := fun _ _ h => h

theorem Extends.trans {a b c : Arena} (hab : a.Extends b) (hbc : b.Extends c) : a.Extends c :=
  fun i n h => hbc i n (hab i n h)

theorem lt_size_of_node? {a : Arena} {i : Nat} {n : Node} (h : a.node? i = some n) :
    i < a.size :=
  (Array.getElem?_eq_some_iff.mp h).1

@[simp] theorem size_push (a : Arena) (n : Node) : (a.push n).size = a.size + 1 :=
  Array.size_push ..

theorem node?_push (a : Arena) (n : Node) (i : Nat) :
    (a.push n).node? i = if i = a.size then some n else a.node? i :=
  Array.getElem?_push ..

theorem extends_push (a : Arena) (n : Node) : a.Extends (a.push n) := by
  intro i m h
  rw [node?_push, if_neg (Nat.ne_of_lt (lt_size_of_node? h)), h]

@[simp] theorem at?_ofNat (a : Arena) (i : Nat) : a.at? i = a.node? i := by
  simp [at?]

theorem operands_of_node? {a : Arena} {i : Nat} {n : Node} (h : a.node? i = some n) :
    a.operands i = n.operands := by
  simp [operands, h]

theorem WellFormed.operand_lt {a : Arena} (h : a.WellFormed) {i c : Nat}
    (hc : c ∈ a.operands i) : c < i := by
  unfold operands at hc
  cases hn : a.node? i with
  | none => simp [hn] at hc
  | some n => exact h i n hn c (by simpa [hn] using hc)

theorem wellFormed_empty : empty.WellFormed := by
  intro i n h
  simp [empty, node?] at h

theorem WellFormed.push {a : Arena} (h : a.WellFormed) {n : Node}
    (hn : ∀ c ∈ n.operands, c < a.size) : (a.push n).WellFormed := by
  intro i m hm c hc
  rw [node?_push] at hm
  split at hm
  · rename_i hi
    cases hm
    exact hi ▸ hn c hc
  · exact h i m hm c hc

/-- A node that is accepted refers to nodes of the arena. -/
theorem operands_lt_of_newNode {a : Arena} {kind : Kind} {operands : List Int} {shape : Value}
    {name : Option String} {n : Node} (h : a.newNode kind operands shape name = .ok n) :
    ∀ c ∈ n.operands, c < a.size := by
  unfold newNode at h
  split at h
  · cases h
  · rename_i form hform
    split at h
    · cases h
    · rename_i hall
      cases hs : Shape.ofValue shape with
      | error e => simp [hs, Except.map] at h
      | ok s =>
        simp only [hs, Except.map, Except.ok.injEq] at h
        subst h
        intro c hc
        have hc' : c ∈ operands.map Int.toNat := (Form.of?_eq_some_iff.mp hform).2 ▸ hc
        obtain ⟨x, hx, rfl⟩ := List.mem_map.mp hc'
        have := List.find?_eq_none.mp hall x hx
        simp only [Bool.not_eq_true', Bool.and_eq_false_iff, decide_eq_false_iff_not,
          not_or, Decidable.not_not] at this
        omega

end Arena

end TensorGraph
