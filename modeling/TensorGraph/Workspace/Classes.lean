import TensorGraph.Text.Identifier
import TensorGraph.Workspace.Calling

/-!
# Making classes

A class is made from named objects. It may list the fields that its members have in place of a
dictionary, which have to be names that the class does not have itself, and it tells the objects
that ask for it under which name it has them.
-/

namespace TensorGraph

namespace Layout

/-- A name that begins with two underscores, and does not end with them, is private to its class. -/
def privateName (className name : String) : String :=
  if name.startsWith "__" && !name.endsWith "__" then
    let owner := String.ofList (className.toList.dropWhile (· == '_'))
    if owner.isEmpty then name else "_" ++ owner ++ name
  else name

/-- Adds what a name between double underscores stands for; another name is left for later. -/
def addSpecial (l : Layout) (name : String) : Except Refusal Layout :=
  if name == "__dict__" then
    if l.hasDictionary then .error .secondDictionary else .ok { l with hasDictionary := true }
  else if name == "__weakref__" then
    if l.hasWeakReferences then .error .secondWeakReference
    else .ok { l with hasWeakReferences := true }
  else .ok l

/-- Adds a field of a listed name, which the class must not have itself. -/
def addField (className : String) (attrs : Attributes) (l : Layout) (name : String) :
    Except Refusal Layout :=
  let field := privateName className name
  if name == "__dict__" || name == "__weakref__" then .ok l
  else if (attrs.get? field).isSome && name != "__qualname__" && name != "__classcell__" then
    .error (.fieldShared field)
  else .ok { l with fields := l.fields ++ [field] }

/-- Fields come in the order of their names. -/
def sorted (l : Layout) : Layout :=
  { l with fields := l.fields.mergeSort fun s t => decide (s ≤ t) }

end Layout

namespace Workspace

def fieldName (a : Address) : Work String := do
  match ← object a with
  | some (.value (.text s)) =>
    if Text.isIdentifier s then return s else throw (.refused .fieldNotName)
  | _ => decline .fieldNotText a

/-- What a class lists: a single text is one name. -/
def listed (call : Caller) (a : Address) : Work (List Address) := do
  match ← object a with
  | some (.value (.text _)) => return [a]
  | _ => itemsOf call a

def ofRefusal {α : Type} (x : Except Refusal α) : Work α :=
  match x with
  | .ok v => pure v
  | .error why => throw (.refused why)

/-- The layout of the members of a class. All names are looked at before any field is compared with
what the class has. -/
def layoutOf (call : Caller) (className : String) (attrs : Attributes) : Work Layout := do
  match attrs.get? "__slots__" with
  | none => return {}
  | some slots =>
    let bare : Layout := { hasDictionary := false, hasWeakReferences := false }
    let (l, names) ← (← listed call slots).foldlM
      (fun (l, names) a => do
        let name ← fieldName a
        return (← ofRefusal (l.addSpecial name), names ++ [name]))
      (bare, ([] : List String))
    Layout.sorted <$> ofRefusal (names.foldlM (Layout.addField className attrs) l)

/-- Two of the objects of a class have to be of a type. -/
def checkParts (attrs : Attributes) : Work Unit := do
  match attrs.get? "__qualname__" with
  | some a =>
    if (← asking fun h => (h.atom a).text?).isNone then decline .qualifiedNameNotText a
  | none => pure ()
  match attrs.get? "__classcell__" with
  | some a => decline .cellNotPlace a
  | none => pure ()

/-- The objects that a class keeps. Members that are compared in a way of their own cannot be looked
up, unless the class says how. -/
def keptAttributes (attrs : Attributes) : Work Attributes := do
  let attrs : Attributes := attrs.filter fun e => e.1 != "__qualname__"
  if (attrs.get? "__eq__").isSome && (attrs.get? "__hash__").isNone then
    return attrs ++ [("__hash__", ← newValue .none)]
  else return attrs

def nameParts (call : Caller) (type : Address) (className : String) (attrs : Attributes) :
    Work Unit :=
  attrs.forM fun (name, item) => do
    match ← special? call item "__set_name__" with
    | none => pure ()
    | some f => do
      let owner ← asking fun h => h.typeName item
      let called := do call f [type, ← newValue (.text name)]
      let _ ← orElse called (fun _ => true)
        (throw (.refused (.namingFailed owner name className)))

def fieldObjects (l : Layout) : Work Attributes :=
  l.fields.mapM fun name => do return (name, ← newObject (.field name))

def newClass (call : Caller) (className : String) (entries : List (String × Address)) :
    Work Address := do
  let attrs := Attributes.ofEntries entries
  let layout ← layoutOf call className attrs
  checkParts attrs
  let attrs ← keptAttributes attrs
  let type ← newObject
    (.type { name := className, attrs := attrs ++ (← fieldObjects layout), layout })
  nameParts call type className attrs
  return type

end Workspace

end TensorGraph
