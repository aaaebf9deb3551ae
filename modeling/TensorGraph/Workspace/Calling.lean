import TensorGraph.Workspace.Operators

/-!
# Calling objects

Functions, layers, classes and members of a class can be called. A function computes its body from
its argument and what it captures; a layer does with its input what its class says, unless it has a
rule of its own; a class gives a new member; and a member is called by what its class has for that.
-/

namespace TensorGraph

def Function.argument (f : Function) : List Address → Except Error Address
  | [x] => .ok x
  | [] =>
    match f.defaults.getLast? with
    | some x => .ok x
    | none => .error (.missingArgument f.name "x")
  | xs => .error (.tooManyArguments f.name 1 f.defaults.length xs.length)

namespace Workspace

/-- A function of an object. What is no handle has a sign to turn round, and no other function but
an attribute of its name. -/
def apply (call : Caller) (f : Pointwise) (a : Address) : Work Address := do
  if ← isHandle a then pointwiseHandle call f a
  else
    match f with
    | .node .neg => negate call a
    | .node k => do call (← getAttribute call a k.method) []
    | .relu => do
      let step ← call (← getAttribute call a Unary.gtz.method) []
      combine call .mul a step

/-- The result of a body, its operands built from left to right. -/
def evaluateBody (call : Caller) (named : String → Work Address) : Body → Work Address
  | .name s => named s
  | .apply f b => do apply call f (← evaluateBody call named b)
  | .combine op l r => do
    let l ← evaluateBody call named l
    let r ← evaluateBody call named r
    combine call op l r

/-- What a function calls by name: its argument, and what it captures. -/
def scope (x : Address) (captured : List (String × Option Address)) (s : String) : Work Address :=
  if s == "x" then pure x
  else
    match captured.find? fun c => c.1 == s with
    | some (_, some item) => pure item
    | some (_, none) => throw (.emptyVariable s)
    | none => throw (.noAttribute ⟨"object", none⟩ s)

/-- Calls an object with an input, after it was asked for its class. -/
def forward (call : Caller) (f x : Address) : Work Address := do
  askClass call f
  call f [x]

def affine (call : Caller) (layer x : Address) : Work Address := do
  let weight ← getAttribute call layer "weight"
  let y ← combine call .mul x weight
  let bias ← getAttribute call layer "bias"
  if ← asking fun h => h.isNone bias then return y else combine call .add y bias

def sequential (call : Caller) (layer x : Address) : Work Address := do
  let layers ← getAttribute call layer "layers"
  (← Source.of call layers).foldM call (fun x f => forward call f x) x

def applyBody (call : Caller) (l : Layer) (layer x : Address) : Work Address := do
  match l with
  | .affine => affine call layer x
  | .sequential => sequential call layer x
  | .bare => throw .notImplemented
  | .custom body =>
    evaluateBody call (fun s => if s == "x" then pure x else getAttribute call layer s) body

/-- What a layer does with its input. A rule of its own stands in for that of its class. -/
def applyLayer (call : Caller) (l : Layer) (layer attrs x : Address) : Work Address := do
  match ← asking fun h => (h.entries attrs).get? (.text "forward") with
  | some f => call f [x]
  | none => applyBody call l layer x

def textsOf (items : List Address) : Work (List String) :=
  ((List.range items.length).zip items).mapM fun (i, a) => do
    match ← object a with
    | some (.value (.text s)) => return s
    | _ => decline (.notAText i) a

/-- That a class has no members, since it leaves open what they do. -/
def refuseAbstract {α : Type} (call : Caller) (c : MadeClass) : Work α := do
  let items ←
    match c.attrs.get? "__abstractmethods__" with
    | some methods => itemsOf call methods
    | none => pure []
  throw (.refused (.abstractClass c.name (← textsOf (← sort call items))))

/-- An empty member of a class, which takes the arguments if it is set up by them. -/
def emptyMember (call : Caller) (type : Address) (c : MadeClass) (xs : List Address) :
    Work Address := do
  if !xs.isEmpty && (c.attrs.get? "__init__").isNone then throw (.takesNoArguments c.name)
  if c.isAbstract then refuseAbstract call c
  let attrs ← newObject (.dict [])
  newObject (.member (.made type) attrs [])

def setUp (call : Caller) (a : Address) (xs : List Address) : Work Address := do
  match ← special? call a "__init__" with
  | none => return a
  | some f =>
    let outcome ← call f xs
    if ← asking fun h => h.isNone outcome then return a else reject .resultOfSetup outcome

/-- A new member of a class. The class may make it by itself; what it makes then is set up only if
it is a member of the class. -/
def newMember (call : Caller) (type : Address) (c : MadeClass) (xs : List Address) :
    Work Address := do
  match c.attrs.get? "__new__" with
  | none => do setUp call (← emptyMember call type c xs) xs
  | some item => do
    let f ← through call item none type
    let a ← call f (type :: xs)
    if ← asking fun h => (h.madeClassOf? a).map Prod.fst == some type then setUp call a xs
    else return a

def callLayer (call : Caller) (l : Layer) (layer attrs : Address) (callee : String)
    (xs : List Address) : Work Address := do
  match xs with
  | [x] => applyLayer call l layer attrs x
  | [] => throw (.missingArgument callee "x")
  | _ => throw (.tooManyArguments callee 2 0 (xs.length + 1))

def startsWith (s : String) (first : Address) : Work Address := do
  match ← object first with
  | some (.value (.text t)) => newTruth (s.startsWith t)
  | _ => decline .notABeginning first

def callBound (call : Caller) (name : String) (a : Address) (xs : List Address) : Work Address := do
  match ← object a, name, xs with
  | some (.list items), "append", [x] => do
    changing fun h => h.replace a (.list (items ++ [x]))
    newValue .none
  | some (.dict entries), "items", [] => do
    let rows ← entries.mapM fun e => do newObject (.tuple [← newValue e.1, e.2])
    newObject (.list rows)
  | some (.value (.text s)), "startswith", [first] => startsWith s first
  | some (.member (.layer l) ..), "forward", [x] => applyBody call l a x
  | some (.member (.layer l) attrs _), _, xs => callLayer call l a attrs ("Module." ++ name) xs
  | _, _, _ => do
    let type ← asking fun h => (h.typeName a).name
    throw (.tooManyArguments (type ++ "." ++ name) 1 0 (xs.length + 1))

/-- Calls an object, going at most `depth` calls deep. -/
def callWithin : Nat → Caller
  | 0, a, _ => do
    if ← asking fun h => (h.madeClassOf? a).isSome then throw .callsTooDeep else throw .tooDeep
  | depth + 1, a, xs => do
    match ← object a with
    | some (.function f _) =>
      let x ← ofExcept (f.argument xs)
      evaluateBody (callWithin depth) (scope x f.captured) f.body
    | some (.method f first) => callWithin depth f (first :: xs)
    | some (.bound name first) => callBound (callWithin depth) name first xs
    | some (.type c) => newMember (callWithin depth) a c xs
    | some (.member (.layer l) attrs _) =>
      callLayer (callWithin depth) l a attrs "Module.__call__" xs
    | _ =>
      match ← special? (callWithin depth) a "__call__" with
      | some f => callWithin depth f xs
      | none => reject .notCallable a

/-- Calls that go deeper than this go round in a cycle. -/
def callDepth (w : Workspace) : Nat := 4 * w.heap.size + 16

def call : Caller := fun a xs w => callWithin w.callDepth a xs w

/-- That a callee knows no argument of a name, going at most `depth` calls deep. -/
def refuseNameWithin {α : Type} (name : String) : Nat → Address → Work α
  | 0, _ => throw .tooDeep
  | depth + 1, a => do
    match ← object a with
    | some (.function f _) => throw (.refused (.unexpectedName f.name name))
    | some (.method f _) => refuseNameWithin name depth f
    | some (.member (.layer _) ..) => throw (.refused (.unexpectedName "Module.__call__" name))
    | some (.type c) =>
      match c.attrs.get? "__new__", c.attrs.get? "__init__" with
      | some f, _ | none, some f => refuseNameWithin name depth f
      | none, none => throw (.takesNoArguments c.name)
    | _ =>
      match ← special? call a "__call__" with
      | some f => refuseNameWithin name depth f
      | none => reject .notCallable a

def refuseName {α : Type} (name : String) (a : Address) : Work α := fun w =>
  refuseNameWithin name w.callDepth a w

/-- Recipes carried out on objects. -/
def algebra : Algebra Work Address where
  neg := apply call (.node .neg)
  mul := combine call .mul
  div := combine call .div
  zeroLike := zeroLike call

/-- The sum of gradients. A single one is the sum itself. -/
def sum (gradients : List Address) : Work Address := do
  let zeros ← gradients.filterM (isOfKind call .zero)
  accumulate (fun a => zeros.contains a) (combine call .add) gradients

end Workspace

end TensorGraph
