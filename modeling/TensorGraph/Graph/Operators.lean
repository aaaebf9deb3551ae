import TensorGraph.Graph.Arena

/-!
# Operators

New nodes from old ones inside one arena. The operands of a sum or product have one shape, which
the result takes. A difference appends the negated operand first and a quotient the reciprocal;
when the shapes then differ, that node stays.
-/

namespace TensorGraph.Arena

def unary (k : Unary) (x : Int) : Build Nat := do
  let node ← nodeAt x
  add (.unary k) [x] (.shape node.shape) none

def binary (k : Binary) (l r : Int) : Build Nat := do
  let left ← nodeAt l
  let right ← nodeAt r
  if left.shape ≠ right.shape then
    throw (.shapeMismatch (.operator (.binary k)) left.shape right.shape)
  add (.binary k) [l, r] (.shape left.shape) none

def sub (l r : Int) : Build Nat := do
  let negated ← unary .neg r
  binary .add l negated

def div (l r : Int) : Build Nat := do
  let inverse ← unary .reciprocal r
  binary .mul l inverse

/-- A zero leaf of the shape of a node. -/
def zeroLike (x : Int) : Build Nat := do
  let node ← nodeAt x
  zero (.shape node.shape)

theorem newNode_eq_ok {a : Arena} (form : Form) (h : ∀ c ∈ form.operands, c < a.size)
    (s : Shape) (name : Option String) :
    a.newNode form.kind (form.operands.map Int.ofNat) (.shape s) name = .ok ⟨form, s, name⟩ := by
  have hform : Form.of? form.kind ((form.operands.map Int.ofNat).map Int.toNat) = some form := by
    rw [Form.of?_eq_some_iff, List.map_map]
    exact ⟨rfl, (List.map_id _).symm⟩
  have hall : (form.operands.map Int.ofNat).find?
      (fun c : Int => !(decide (0 ≤ c) && decide (c < a.size))) = none := by
    rw [List.find?_eq_none]
    intro c hc
    obtain ⟨x, hx, rfl⟩ := List.mem_map.mp hc
    have := h x hx
    simp only [Int.ofNat_eq_natCast]
    simp [this]
  unfold newNode
  rw [hform]
  dsimp only
  rw [hall]
  rfl

theorem unary_run {a : Arena} {k : Unary} {x : Nat} {n : Node} (hx : a.node? x = some n) :
    unary k x a = .ok a.size (a.push ⟨.unary k x, n.shape, none⟩) := by
  have hnew := newNode_eq_ok (a := a) (.unary k x)
    (by simpa [Form.operands] using lt_size_of_node? hx) n.shape none
  simp only [Form.kind, Form.operands, List.map_cons, List.map_nil, Int.ofNat_eq_natCast] at hnew
  simp only [unary, nodeAt, bind, EStateM.bind, at?_ofNat, hx, add, hnew, append]

theorem binary_run {a : Arena} {k : Binary} {l r : Nat} {m n : Node} (hl : a.node? l = some m)
    (hr : a.node? r = some n) (h : m.shape = n.shape) :
    binary k l r a = .ok a.size (a.push ⟨.binary k l r, m.shape, none⟩) := by
  have hnew := newNode_eq_ok (a := a) (.binary k l r)
    (by simpa [Form.operands] using ⟨lt_size_of_node? hl, lt_size_of_node? hr⟩) m.shape none
  simp only [Form.kind, Form.operands, List.map_cons, List.map_nil, Int.ofNat_eq_natCast] at hnew
  simp only [binary, nodeAt, bind, EStateM.bind, at?_ofNat, hl, hr]
  rw [if_neg (not_not_intro h)]
  simp only [add, hnew, append]

end TensorGraph.Arena
