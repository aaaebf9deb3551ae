import TensorGraph.Workspace.Keys

/-!
# Looking up

What an object has at an index, and what a handle refers to: a node of an arena, or what its store
has under its index, which is asked in its turn. The parts of a node are attributes of the handles
that refer to it.
-/

namespace TensorGraph.Workspace

/-- The item of a row at a position; a negative one counts from the end. -/
def itemAt (items : List Address) (n : Int) (none : Error) : Work Address :=
  let position := if n < 0 then n + items.length else n
  match if 0 ≤ position then items[position.toNat]? else Option.none with
  | some item => pure item
  | Option.none => throw (if Width.word.holds n then none else .indexTooLarge)

def position (call : Caller) (i : Index) (fault : TypeName → Error) : Work Int := do
  match i with
  | .int n => return n
  | .object a =>
    match ← integer? call a with
    | some n => return n
    | none => reject fault a

/-- Whether a key of a dictionary is, or equals, a key looked for. -/
def isEntry (call : Caller) (stored : Value) (key : Address) : Work Bool := do
  match ← asking fun h => h.value? key with
  | some v => return stored.same v
  | none => do equals call (← newValue stored) key

def findEntry (call : Caller) (key : Address) (code : HashCode) : Entries → Work Address
  | [] => throw (.noEntry key)
  | (stored, item) :: rest => do
    if HashCode.ofValue? key stored != some code then findEntry call key code rest
    else if ← isEntry call stored key then return item
    else findEntry call key code rest

def entryOf (call : Caller) (entries : Entries) (i : Index) : Work Address := do
  let key ← indexObject i
  findEntry call key (← hashOf call key) entries

/-- What a class has under an index, if it says so for itself. -/
def itemOfClass (call : Caller) (type : Address) (c : MadeClass) (i : Index) : Work Address := do
  match ← asking fun h => (c.attrs.get? "__class_getitem__").filter fun item => !h.isNone item with
  | none => throw (.refused (.classNotSubscriptable c.name))
  | some item =>
    let f ← through call item (if ← asking fun h => h.isFunction item then some type else none) type
    call f [← indexObject i]

/-- What an object has under an index: containers by position or by key, and other objects if their
class says so. -/
def itemOf (call : Caller) (a : Address) (i : Index) : Work Address := do
  match ← object a with
  | some (.list items) => itemAt items (← position call i .notAnIndex) .missingNode
  | some (.tuple _) | some (.shape ..) =>
    let n ← position call i fun type => .refused (.tupleIndex type)
    let items ← onHeap fun h => .ok (h.tupleItems a)
    itemAt items n (.refused (.noItemAt "tuple"))
  | some (.value (.text s)) =>
    let n ← position call i fun type => .refused (.textIndex type)
    let items ← onHeap fun h => .ok (h.ofValues (Value.characters s))
    itemAt items n (.refused (.noItemAt "string"))
  | some (.value (.sized ..)) | some (.value (.sizedFloat _)) => throw (.refused .scalarIndex)
  | some (.dict entries) => entryOf call entries i
  | some (.type c) => itemOfClass call a c i
  | _ =>
    match ← special? call a "__getitem__" with
    | some f => call f [← indexObject i]
    | none => reject .notSubscriptable a

/-- What a handle refers to: a node, or an object that stands for one. -/
inductive Referent where
  | node (e : Expr) (n : Node)
  | object (a : Address)
deriving Repr, Inhabited

def referent (call : Caller) (x : Handle) : Work Referent := do
  match x.store with
  | .arena arena =>
    let e : Expr := ⟨arena, ← position call x.index .notAnIndex⟩
    .node e <$> getNode e
  | .object a => .object <$> itemOf call a x.index

/-- The operands of a node as they were given. -/
def operandsAt (e : Expr) (n : Node) : Work (List Index) := fun w =>
  .ok ((w.operandForms[e]?).getD (n.operands.map fun c : Nat => .int c)) w

def nodePart (e : Expr) (n : Node) (name : String) : Work Address := do
  match name with
  | "kind" => newObject (.kind n.kind)
  | "shape" => newValue (.shape n.shape)
  | "children" => do newObject (.tuple (← (← operandsAt e n).mapM indexObject))
  | _ => newValue (n.name.elim .none .text)

def attributeOf (call : Caller) (a : Address) (name : String) : Work Address := do
  match ← asking fun h => h.madeClassOf? a with
  | some (type, c) => memberAttribute call a type c name
  | none => naturalAttribute call a name

/-- The operands of a handle are handles of its store. -/
def asOperands (call : Caller) (store : Store) (indices : Address) : Work Address := do
  let items ← itemsOf call indices
  newObject (.tuple (← items.mapM fun c => do
    holdHandle ⟨store, ← asking fun h => h.indexOf c⟩))

/-- A part of what a handle refers to, at most `depth` handles away. -/
def partWithin (call : Caller) (name : String) : Nat → Handle → Work Address
  | 0, _ => throw .tooDeep
  | depth + 1, x => do
    let part ←
      match ← referent call x with
      | .node e n => nodePart e n name
      | .object b =>
        match ← asking fun h => h.handle? b with
        | some y => partWithin call name depth y
        | none => attributeOf call b name
    if name == "children" then asOperands call x.store part else return part

def isNodePart (name : String) : Bool := ["kind", "shape", "name", "children"].contains name

/-- An attribute of a handle. Handles refer to one another along a path without repetition, unless
they refer to themselves. -/
def handleAttribute (call : Caller) (a : Address) (x : Handle) (name : String) : Work Address := do
  if isNodePart name then fun w => partWithin call name (w.heap.size + 1) x w
  else if name == "arena" || name == "_arena" then
    match x.store with
    | .arena id => newObject (.arena id)
    | .object store => return store
  else if name == "index" || name == "_index" then indexObject x.index
  else if ← asking fun h => h.guard? a name == some .shared then newObject (.bound name a)
  else lacks a name

def getAttribute (call : Caller) (a : Address) (name : String) : Work Address := do
  match ← asking fun h => h.handle? a with
  | some x => handleAttribute call a x name
  | none => attributeOf call a name

def attribute? (call : Caller) (a : Address) (name : String) : Work (Option Address) :=
  orElse (some <$> getAttribute call a name) Error.isOfAttribute (pure none)

def referentPart (call : Caller) (r : Referent) (name : String) : Work Address :=
  match r with
  | .node e n => nodePart e n name
  | .object b => getAttribute call b name

/-- The indices of the operands of what a handle refers to. -/
def operandIndices (call : Caller) (x : Handle) : Work (List Index) := do
  match ← referent call x with
  | .node e n => operandsAt e n
  | .object b => do
    let items ← itemsOf call (← getAttribute call b "children")
    asking fun h => items.map h.indexOf

/-- Whether what an object tells for its kind is a kind. -/
def isOfKind (call : Caller) (kind : Kind) (a : Address) : Work Bool := do
  match ← object a with
  | some (.expr e) => return (← getNode e).kind = kind
  | _ => isKind kind (← getAttribute call a "kind")
where
  isKind (kind : Kind) (a : Address) : Work Bool := do
    match ← object a with
    | some (.kind k) => return k = kind
    | _ => return false

theorem isOfKind_expr {call : Caller} {kind : Kind} {a : Address} {e : Expr} {w : Workspace}
    (h : w.heap.get? a = some (.expr e)) :
    isOfKind call kind a w = (do return (← getNode e).kind = kind : Work Bool) w := by
  simp only [isOfKind, object, bind, EStateM.bind, h]

end TensorGraph.Workspace
