import TensorGraph.Workspace.Questions

/-!
# Labels

Parts of objects go by labels, which are texts or any other objects that can be looked up. A path of
labels is a text as soon as there are two of them. Tables by labels keep the order of their keys,
and a label finds the key that is, or equals, it.
-/

namespace TensorGraph

/-- What a part goes by. -/
inductive Label where
  | text (s : String)
  /-- An object that is no text. -/
  | object (a : Address)
deriving DecidableEq, Hashable, Repr, Inhabited

namespace Workspace

/-- An object as a label. -/
def labelOf (a : Address) : Work Label := do
  match ← asking fun h => (h.atom a).text? with
  | some s => return .text s
  | none => return .object a

/-- A label as an object. -/
def labelObject : Label → Work Address
  | .text s => newValue (.text s)
  | .object a => return a

/-- The text of a label inside another text. -/
def labelText : Label → Work String
  | .text s => return s
  | .object a => formatted call a

/-- Whether a label counts as true. -/
def isNamed : Label → Work Bool
  | .text s => return !s.isEmpty
  | .object a => isTrue call a

/-- The label of a part below a path. -/
def labelBelow (path part : Label) : Work Label := do
  match path, part with
  | .text path, .text part => return .text (joinName path part)
  | path, part =>
    if ← isNamed path then return .text ((← labelText path) ++ "." ++ (← labelText part))
    else return part

def hashOfLabel : Label → Work HashCode
  | .text s => return HashCode.ofText s
  | .object a => hashOf call a

end Workspace

/-- A table by labels. -/
structure Labelled (β : Type) where
  entries : Table Label β := {}
  /-- The keys that are no texts. -/
  codes : KeyCodes := []

namespace Labelled

variable {β : Type}

instance : Inhabited (Labelled β) := ⟨{}⟩

/-- The first of some keys that equals a label. -/
def firstEqual (l : Label) : List Label → Work (Option Label)
  | [] => return none
  | k :: ks => do
    let key ← Workspace.labelObject k
    let other ← Workspace.labelObject l
    if ← Workspace.equals Workspace.call key other then return some k else firstEqual l ks

/-- The key that a label finds. Texts are told apart as they are. -/
def find? (t : Labelled β) (l : Label) : Work (Option Label) := do
  match l, t.codes.isEmpty with
  | .text s, true => return if t.entries.contains (.text s) then some l else none
  | l, _ => do
    let code ← Workspace.hashOfLabel l
    let isLike : Label → Bool
      | .text s => HashCode.ofText s == code
      | .object a => t.codes.any fun k => k.1 == a && k.2 == code
    firstEqual l (t.entries.keys.toList.filter isLike)

def get? (t : Labelled β) (l : Label) : Work (Option β) := do
  return (← t.find? l).bind t.entries.get?

/-- Gives a label something. A key that it finds keeps its place. -/
def insert (t : Labelled β) (l : Label) (v : β) : Work (Labelled β) := do
  match ← t.find? l, l with
  | some k, _ => return { t with entries := t.entries.insert k v }
  | none, .text _ => return { t with entries := t.entries.insert l v }
  | none, .object a => do
    let code ← Workspace.hashOfLabel l
    return { entries := t.entries.insert l v, codes := t.codes ++ [(a, code)] }

/-- The table by texts, if all keys are texts. -/
def texts? (t : Labelled β) : Option (List (String × β)) :=
  t.entries.toList.mapM fun e =>
    match e.1 with
    | .text s => some (s, e.2)
    | .object _ => none

theorem insert_text (t : Labelled β) (s : String) (v : β) (w : Workspace) (h : t.codes = []) :
    t.insert (.text s) v w = .ok { t with entries := t.entries.insert (.text s) v } w := by
  simp only [insert, find?, h, List.isEmpty_nil, bind, EStateM.bind, pure, EStateM.pure]
  cases t.entries.contains (.text s) <;> rfl

end Labelled

end TensorGraph
