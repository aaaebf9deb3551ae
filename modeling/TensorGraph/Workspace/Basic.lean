import TensorGraph.Context.Lowering
import TensorGraph.Gradient.Backward
import TensorGraph.Network.Arithmetic
import TensorGraph.Network.Discovery
import TensorGraph.Value.HashCode

/-!
# Workspaces

A workspace holds arenas, programs, contexts and objects, which refer to one another by number.
Each action works on one arena, program or context and puts it back, also when it fails, so what
was done before an error stays.
-/

namespace TensorGraph

abbrev ProgramId := Nat

abbrev ContextId := Nat

/-- The objects that a context holds on to. -/
structure Ties where
  /-- What the context is bound to in the place of an arena. -/
  store : Option Address := none
  /-- The handles that gradients of nodes are, where others hold them too. -/
  owners : Std.HashMap Int Address := ∅
  /-- The keys of its tables that are no integers. -/
  codes : KeyCodes := []

instance : Inhabited Ties := ⟨{}⟩

/-- A context at work. -/
structure Evaluator where
  context : Context := {}
  /-- The program into which the context evaluates. -/
  program : ProgramId := 0
  ties : Ties := {}

instance : Inhabited Evaluator := ⟨{}⟩

structure Workspace where
  arenas : Arenas
  /-- The arenas in which new leaves are built, the innermost first. -/
  defaults : List ArenaId
  programs : Array Program
  evaluators : Array Evaluator
  heap : Heap
  /-- The operands of nodes that were not all given as plain integers, as they were given. -/
  operandForms : Std.HashMap Expr (List Index)
  /-- Whether the shape of a known instruction has to be the recorded one. -/
  strict : Bool
  /-- What happened, in order. -/
  history : Array Event

abbrev Work := EStateM Error Workspace

namespace Workspace

open Number.Numeral (digitLimit)

/-- A workspace with one arena, in which leaves are built. -/
def start : Workspace := ⟨#[.empty], [0], #[], #[], .start, ∅, true, #[]⟩

instance : Inhabited Workspace := ⟨start⟩

/-- The outcome of a check. -/
def ofExcept {α : Type} (x : Except Error α) : Work α := fun w =>
  match x with
  | .ok v => .ok v w
  | .error e => .error e w

def newArena : Work ArenaId := fun w =>
  .ok w.arenas.size { w with arenas := w.arenas.push .empty }

/-- The arena in which new leaves are built. -/
def defaultArena (w : Workspace) : ArenaId := w.defaults.headD 0

def enterArena (id : ArenaId) : Work Unit := fun w =>
  .ok () { w with defaults := id :: w.defaults }

/-- Returns to the arena before; the outermost one stays. -/
def leaveArena : Work Unit := fun w =>
  match w.defaults with
  | _ :: d :: ds => .ok () { w with defaults := d :: ds }
  | _ => .ok () w

def setStrict (strict : Bool) : Work Unit := fun w => .ok () { w with strict }

/-- Builds in an arena. -/
def inArena {α : Type} (id : ArenaId) (x : Build α) : Work α := fun w =>
  match w.arenas[id]? with
  | none => .error .missingNode w
  | some a =>
    let w := { w with arenas := w.arenas.setIfInBounds id .empty }
    match x a with
    | .ok v a => .ok v { w with arenas := w.arenas.setIfInBounds id a }
    | .error e a => .error e { w with arenas := w.arenas.setIfInBounds id a }

def newProgram : Work ProgramId := fun w =>
  .ok w.programs.size { w with programs := w.programs.push {} }

/-- Emits into a program and records it. -/
def emitting (id : ProgramId) (x : Emit Emission) : Work Nat := fun w =>
  match w.programs[id]? with
  | none => .error .missingNode w
  | some p =>
    let w := { w with programs := w.programs.setIfInBounds id {} }
    match x p with
    | .ok e p =>
      .ok e.id
        { w with
          programs := w.programs.setIfInBounds id p
          history := w.history.push (.emission e) }
    | .error err p => .error err { w with programs := w.programs.setIfInBounds id p }

def alloc (id : ProgramId) (shape : Value) (zero : Bool) : Work Nat :=
  emitting id (Program.alloc shape zero)

def emit (id : ProgramId) (c : Op.Candidate) (shape : Value) (source1 source2 : Int) : Work Nat :=
  fun w => emitting id (Program.emit (some digitLimit) w.strict c shape source1 source2) w

/-- A context over a program, or over a new one. -/
def newContext (program : Option ProgramId) (requiresGrad : Bool) : Work ContextId := do
  let p ←
    match program with
    | some p => pure p
    | none => newProgram
  fun w =>
    .ok w.evaluators.size
      { w with evaluators := w.evaluators.push { context := .fresh requiresGrad, program := p } }

def evaluator (w : Workspace) (c : ContextId) : Evaluator := w.evaluators.getD c {}

def program (w : Workspace) (p : ProgramId) : Program := w.programs.getD p {}

def setEvaluator (w : Workspace) (c : ContextId) (s : Evaluator) : Workspace :=
  { w with evaluators := w.evaluators.setIfInBounds c s }

def inContext {α : Type} (c : ContextId) (x : EStateM Error Context α) : Work α := fun w =>
  let ⟨context, p, ties⟩ := w.evaluator c
  let w := w.setEvaluator c {}
  match x context with
  | .ok v context => .ok v (w.setEvaluator c ⟨context, p, ties⟩)
  | .error e context => .error e (w.setEvaluator c ⟨context, p, ties⟩)

/-- Lowers with a context into its program. -/
def lowering {α : Type} (c : ContextId) (x : Lower α) : Work α := fun w =>
  let ⟨context, p, ties⟩ := w.evaluator c
  let s : Lowering := ⟨context, w.program p, w.history⟩
  let w :=
    { w with
      evaluators := w.evaluators.setIfInBounds c {}
      programs := w.programs.setIfInBounds p {}
      history := #[] }
  let restore (s : Lowering) : Workspace :=
    { w with
      evaluators := w.evaluators.setIfInBounds c ⟨s.context, p, ties⟩
      programs := w.programs.setIfInBounds p s.program
      history := s.history }
  match x s with
  | .ok v s => .ok v (restore s)
  | .error e s => .error e (restore s)

/-- Differentiates with a context in an arena. -/
def differentiating {α : Type} (c : ContextId) (arena : ArenaId) (x : Differentiate α) : Work α :=
  fun w =>
    let ⟨context, p, ties⟩ := w.evaluator c
    let s : Differentiation := ⟨w.arenas.getD arena .empty, context⟩
    let w :=
      { w with
        evaluators := w.evaluators.setIfInBounds c {}
        arenas := w.arenas.setIfInBounds arena .empty }
    let restore (s : Differentiation) : Workspace :=
      { w with
        evaluators := w.evaluators.setIfInBounds c ⟨s.context, p, ties⟩
        arenas := w.arenas.setIfInBounds arena s.arena }
    match x s with
    | .ok v s => .ok v (restore s)
    | .error e s => .error e (restore s)

/-- Records an event. -/
def record (event : Event) : Work Unit := fun w =>
  .ok () { w with history := w.history.push event }

/-- Takes the record of what happened out. -/
def drain (w : Workspace) : Array Event × Workspace := (w.history, { w with history := #[] })

end Workspace

end TensorGraph
