import TensorGraph.Proofs.Op.Parameters
import TensorGraph.Proofs.Program.Execution

/-!
# Runs of a program

A run makes calls one after the other on a new program; a call that fails is followed by the next
one like any other. The calls that succeed are granted an id. A call asks for a leaf or for an
operation over sources, and what it does is one of five things: it is refused and leaves all but
the number of hits as it is, it adds a leaf, it adds an instruction, it adds one and fails since the
operation has no name, or it finds the instruction that it asks for.
-/

namespace TensorGraph

namespace Program

/-- What a call asks an instruction to be: an operation, by its class and its integers, and its
sources, the second one 0 when it has one. -/
structure Wanted where
  tag : List String
  parameters : Option (List Int)
  source1 : Int
  source2 : Int
deriving DecidableEq

/-- What an operation over sources is asked for by. -/
def wanted (op : Op) (source1 source2 : Int) : Wanted :=
  ⟨op.tag, op.integers?, source1, source2⟩

end Program

/-- What an instruction is asked for by. -/
def Instruction.wanted (i : Instruction) : Program.Wanted :=
  Program.wanted i.op i.sources.first i.sources.second

namespace Program

/-- A call that adds to a program. Shapes may be strict in one call and not in the next one. -/
inductive Call where
  | alloc (shape : Value) (zero : Bool)
  | emit (strict : Bool) (c : Op.Candidate) (shape : Value) (source1 source2 : Int)

namespace Call

/-- What a call does, where texts of integers hold so many digits. -/
def carryOut (digits : Option Nat) : Call → Emit Emission
  | alloc shape zero => Program.alloc shape zero
  | emit strict c shape source1 source2 => Program.emit digits strict c shape source1 source2

/-- The instruction that a call asks for; a leaf is none. -/
def wanted? : Call → Option Wanted
  | emit _ (.op op) _ source1 source2 => some (wanted op source1 source2)
  | _ => none

/-- The operation that a call names, if any, has integer parameters. -/
def Integral : Call → Prop
  | emit _ (.op op) _ _ _ => op.integers?.isSome
  | _ => True

instance (call : Call) : Decidable call.Integral := by
  unfold Integral
  split <;> infer_instance

/-- A cell is what a call asks for. -/
def Describes : Call → Cell → Prop
  | alloc shape zero, .leaf s z => Shape.ofValue shape = .ok s ∧ z = zero
  | emit _ c shape source1 source2, .instruction i =>
    c = .op i.op ∧ Shape.ofValue shape = .ok i.shape ∧
      source1 = i.sources.first ∧ source2 = i.sources.second
  | _, _ => False

end Call

/-- A call that succeeded, with the id that it was granted. -/
structure Grant where
  call : Call
  id : Nat

/-- A call asks for something new if it asks for a leaf, or for an instruction that no call before
was granted. -/
def Grant.IsNew (g : Grant) (earlier : List Grant) : Prop :=
  ∀ k ∈ g.call.wanted?, ∀ g' ∈ earlier, g'.call.wanted? ≠ some k

instance (g : Grant) (earlier : List Grant) : Decidable (g.IsNew earlier) := by
  unfold Grant.IsNew
  infer_instance

/-- A program with the calls that succeeded on it, the latest first. -/
structure Record where
  program : Program := {}
  grants : List Grant := []

def Record.after (digits : Option Nat) (r : Record) (call : Call) : Record :=
  match call.carryOut digits r.program with
  | .ok e p => ⟨p, ⟨call, e.id⟩ :: r.grants⟩
  | .error _ p => ⟨p, r.grants⟩

/-- The record of calls on a new program. -/
def run (digits : Option Nat) (calls : List Call) : Record :=
  calls.foldl (Record.after digits) {}

/-- The ids of what was new, in the order of the calls. -/
def newIds : List Grant → List Nat
  | [] => []
  | g :: earlier => newIds earlier ++ if g.IsNew earlier then [g.id] else []

/-! ### What a call does -/

variable {digits : Option Nat}

theorem sources_eq {p : Program} {op : Op} {a b : Int} {read : Sources}
    (h : p.sources digits op a b = .ok read) : a = read.first ∧ b = read.second := by
  obtain ⟨-, ⟨-, x, y, rfl, rfl, rfl⟩ | ⟨hcount, x, rfl, rfl⟩⟩ := sources_ok h
  · exact ⟨rfl, rfl⟩
  · refine ⟨rfl, Decidable.byContradiction fun hb => ?_⟩
    have hsecond : b ≠ 0 := hb
    rw [sources, if_neg hcount, if_pos hsecond] at h
    obtain ⟨_, -, h⟩ := except_bind_eq_ok.mp h
    cases h

/-- What a call on a program does. -/
inductive Outcome (digits : Option Nat) (p : Program) (call : Call) : Prop
  /-- It is refused, and nothing changes but the number of hits. -/
  | refused (e : Error) (hits : Nat) (run : call.carryOut digits p = .error e { p with hits })
  | leaf (s : Shape) (z : Bool) (describes : call.Describes (.leaf s z))
      (run : call.carryOut digits p = .ok (.leaf (p.size + 1) s z) (p.push (.leaf s z)))
  /-- It adds an instruction under a key that was not known. -/
  | fresh (i : Instruction) (describes : call.Describes (.instruction i))
      (sources : ∀ s ∈ i.sources.toList, 0 < s ∧ s ≤ p.size) (unknown : p.find? i = none)
      (named : i.op.Named digits)
      (run : call.carryOut digits p =
        .ok (.fresh (p.size + 1) i) ((p.addInstruction i).addUsers (p.size + 1) i.sources.toList))
  /-- It adds an instruction without a name, and fails. -/
  | unnamed (e : Error) (i : Instruction) (describes : call.Describes (.instruction i))
      (sources : ∀ s ∈ i.sources.toList, 0 < s ∧ s ≤ p.size) (unknown : p.find? i = none)
      (unnamed : ¬i.op.Named digits)
      (run : call.carryOut digits p = .error e (p.addInstruction i))
  /-- It finds an instruction. -/
  | hit (i : Instruction) (id : Nat) (describes : call.Describes (.instruction i))
      (known : p.find? i = some id) (named : i.op.Named digits)
      (run : call.carryOut digits p =
        .ok (.hit id i) (addUsers { p with hits := p.hits + 1 } id i.sources.toList))

theorem outcome (digits : Option Nat) (p : Program) (call : Call) : Outcome digits p call := by
  cases call with
  | alloc shape zero =>
    cases hs : Shape.ofValue shape with
    | error e => exact .refused e p.hits (by simp [Call.carryOut, alloc, hs])
    | ok s => exact .leaf s zero ⟨hs, rfl⟩ (by simp [Call.carryOut, alloc, hs])
  | emit strict c shape a b =>
    rcases emit_cases digits strict c shape a b p with ⟨e, he⟩ | ⟨i, hi, hrun⟩
    · exact .refused e p.hits he
    obtain ⟨hop, hshape, hsources⟩ := newInstruction_ok hi
    have hdescribes : (Call.emit strict c shape a b).Describes (.instruction i) :=
      ⟨hop, hshape, sources_eq hsources⟩
    rcases hrun with ⟨id, hfind, hrun⟩ | ⟨hfind, hrun⟩
    · rcases hit_cases digits strict i id p with ⟨e, hhit⟩ | ⟨hnamed, hhit⟩
      · exact .refused e (p.hits + 1) (hrun.trans hhit)
      · exact .hit i id hdescribes hfind hnamed (hrun.trans hhit)
    · have hs := (sources_ok hsources).1
      by_cases hnamed : i.op.Named digits
      · exact .fresh i hdescribes hs hfind hnamed (hrun.trans (fresh_of_named hnamed p))
      · obtain ⟨e, he⟩ := fresh_of_unnamed hnamed p
        exact .unnamed e i hdescribes hs hfind hnamed (hrun.trans he)

/-- What a call does to cells and known keys: nothing, or it adds a leaf, or it adds an instruction
under its key. -/
theorem cells_known_after (digits : Option Nat) (p : Program) (call : Call) :
    ((stateAfter (call.carryOut digits p)).cells = p.cells ∧
      (stateAfter (call.carryOut digits p)).known = p.known) ∨
    (∃ s z, (stateAfter (call.carryOut digits p)).cells = p.cells.push (.leaf s z) ∧
      (stateAfter (call.carryOut digits p)).known = p.known) ∨
    ∃ i, call.Describes (.instruction i) ∧
      (stateAfter (call.carryOut digits p)).cells = p.cells.push (.instruction i) ∧
      (stateAfter (call.carryOut digits p)).known = p.known.insert i.key (p.size + 1) := by
  cases outcome digits p call with
  | refused e hits hrun =>
    rw [hrun]
    exact .inl ⟨rfl, rfl⟩
  | leaf s z _ hrun =>
    rw [hrun]
    exact .inr (.inl ⟨s, z, rfl, rfl⟩)
  | fresh i hdescribes _ _ _ hrun =>
    rw [hrun]
    exact .inr (.inr ⟨i, hdescribes, cells_addUsers _ _ _, known_addUsers _ _ _⟩)
  | unnamed e i hdescribes _ _ _ hrun =>
    rw [hrun]
    exact .inr (.inr ⟨i, hdescribes, rfl, rfl⟩)
  | hit i id _ _ _ hrun =>
    rw [hrun]
    exact .inl ⟨cells_addUsers _ _ _, known_addUsers _ _ _⟩

/-! ### Invariants of runs -/

theorem Record.program_after (r : Record) (call : Call) :
    (r.after digits call).program = stateAfter (call.carryOut digits r.program) := by
  simp only [Record.after]
  cases call.carryOut digits r.program <;> rfl

/-- What holds of a new record and is kept by every call holds after a run. -/
theorem run_induction {P : Record → Prop} (hempty : P {}) {calls : List Call}
    (hstep : ∀ call ∈ calls, ∀ r, P r → P (r.after digits call)) : P (run digits calls) := by
  have hall : ∀ {r : Record}, P r → P (calls.foldl (Record.after digits) r) := by
    induction calls with
    | nil => exact id
    | cons call calls ih =>
      intro r hr
      exact ih (fun c hc => hstep c (List.mem_cons_of_mem call hc))
        (hstep call (List.mem_cons_self ..) _ hr)
  exact hall hempty

/-- What holds of a new program and is kept by every call holds after a run. -/
theorem run_invariant {P : Program → Prop} (hempty : P {}) {calls : List Call}
    (hstep : ∀ call ∈ calls, ∀ p, P p → P (stateAfter (call.carryOut digits p))) :
    P (run digits calls).program := by
  refine run_induction (P := fun r => P r.program) hempty fun call hcall r hr => ?_
  rw [Record.program_after]
  exact hstep call hcall _ hr

end Program

end TensorGraph
