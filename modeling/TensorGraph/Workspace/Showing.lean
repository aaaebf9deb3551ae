import TensorGraph.Workspace.Lookup

/-!
# Texts of objects

An object has a text by which it is told from others, in which texts are quoted, and one by which it
stands inside another text. Containers show their items, expressions tell of their node, and members
of a made class have the texts that the class gives them. A container inside itself is left out.
-/

namespace TensorGraph.Workspace

def statedText (fault : TypeName → Error) (outcome : Address) : Work String := do
  match ← object outcome with
  | some (.value (.text s)) => return s
  | _ => reject fault outcome

/-- The text of an object that is no value and that its class has nothing to say about. -/
def plainText (w : Workspace) (a : Address) : String :=
  match w.heap.get? a with
  | some (.kind k) => "<Kind." ++ k.name ++ ": " ++ Text.quote k.word ++ ">"
  | some (.arena id) => (w.arenas.getD id .empty).text
  | _ => "<" ++ (w.heap.typeName a).qualified ++ " object>"

/-- How an object is told: from others, by itself, or inside another text. -/
inductive Style where
  | written
  | shown
  | formatted
deriving DecidableEq, Repr, Inhabited

/-- The text of a handle: the kind and the name of what it refers to, the shape and the index. -/
def handleText (call : Caller) (tell : Style → Address → Work String) (x : Handle) :
    Work String := do
  let r ← referent call x
  let label ←
    if ← isTrue call (← referentPart call r "name") then
      do pure (" " ++ (← tell .written (← referentPart call r "name")))
    else pure ""
  let kind ← tell .formatted (← getAttribute call (← referentPart call r "kind") "value")
  let shape ← tell .written (← referentPart call r "shape")
  let index ← tell .formatted (← indexObject x.index)
  return "Expr(" ++ kind ++ label ++ ", " ++ shape ++ ", #" ++ index ++ ")"

def valueText (style : Style) (v : Value) : Work String := do
  let text ← ofExcept (v.shown (some Number.Numeral.digitLimit))
  return if style = .written then v.written else text

/-- The text of an object as its class gives it. Where there is none for the object itself, the one
by which it is told from others stands for it. -/
def givenText? (call : Caller) (style : Style) (a : Address) : Work (Option String) := do
  let fault (name : String) (type : TypeName) : Error := .refused (.notItsText name type)
  let written (name : String) : Work (Option String) := do
    match ← specialOrNone call a "__repr__" with
    | some f => some <$> (do statedText (fault name) (← call f []))
    | none => return none
  let shown : Work (Option String) := do
    match ← special? call a "__str__" with
    | some f => some <$> (do statedText (fault "__str__") (← call f []))
    | none => written "__str__"
  match style with
  | .written => written "__repr__"
  | .shown => shown
  | .formatted =>
    match ← special? call a "__format__" with
    | some f =>
      let outcome ← call f [← newValue (.text "")]
      some <$> statedText (fun type => .refused (.notFormatted type)) outcome
    | none => shown

/-- The text of an object, at most `depth` objects deep, inside of the containers given. -/
def textWithin (call : Caller) : Nat → List Address → Style → Address → Work String
  | 0, _, _, _ => throw .tooDeep
  | depth + 1, outer, style, a => do
    let inside := textWithin call depth (a :: outer)
    let isOpen := outer.contains a
    match ← object a, ← asking fun h => h.handle? a with
    | some (.list items), _ =>
      if isOpen then return "[...]"
      return "[" ++ ", ".intercalate (← items.mapM (inside .written)) ++ "]"
    | some (.tuple items), _ =>
      if isOpen then return "(...)"
      return Value.tupleText (← items.mapM (inside .written))
    | some (.dict entries), _ =>
      if isOpen then return "\x7b...\x7d"
      let texts ← entries.mapM fun e => do
        return (← valueText .written e.1) ++ ": " ++ (← inside .written e.2)
      return "\x7b" ++ ", ".intercalate texts ++ "\x7d"
    | some (.member (.made _) ..), _ => do
      return (← givenText? call style a).getD (← fun w => .ok (plainText w a) w)
    | some (.value v), _ => valueText style v
    | some (.shape s _), _ => valueText style (.shape s)
    | some (.kind k), _ =>
      if style = .written then fun w => .ok (plainText w a) w else return "Kind." ++ k.name
    | _, some x => handleText call inside x
    | _, none => fun w => .ok (plainText w a) w

/-- The text of an object. Objects on the way down are other ones, unless one holds itself. -/
def textOf (call : Caller) (style : Style) (a : Address) : Work String := fun w =>
  textWithin call (2 * w.heap.size + 2) [] style a w

/-- The text of an object by which it is told from others. -/
def written (call : Caller) : Address → Work String := textOf call .written

/-- The text of an object by itself. -/
def shown (call : Caller) : Address → Work String := textOf call .shown

/-- The text of an object inside another text. -/
def formatted (call : Caller) : Address → Work String := textOf call .formatted

def tellingKey {α : Type} (call : Caller) (x : Work α) : Work α := fun w =>
  match x w with
  | .ok v w => .ok v w
  | .error (.noEntry key) w => (do throw (.missingKey (← shown call key)) : Work α) w
  | .error e w => .error e w

end TensorGraph.Workspace
