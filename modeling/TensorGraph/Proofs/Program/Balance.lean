import TensorGraph.Proofs.Program.Strictness

/-!
# Balance of a program

The counters of a program against the calls that were granted an id: there are as many leaves as
granted allocations, and as many instructions and hits as granted emissions, if every refused call
was refused for its arguments. Two things are found out later: that an instruction is known in
another shape, and that its operation has no name. By then the call has counted as a hit or has
added its instruction.
-/

namespace TensorGraph.Program

variable {digits : Option Nat} {p q : Program} {call : Call} {e : Error}

/-- A call is refused although its arguments are those of an instruction: the operation has no name,
or the call conflicts and shapes are strict. -/
def Call.RefusedLate (digits : Option Nat) (p : Program) (call : Call) : Prop :=
  ∃ i, call.Asks digits p i ∧
    (¬i.op.Named digits ∨ call.strict = true ∧ ∃ id s, call.Conflict digits p i id s)

/-- What a call that is refused late leaves: one more hit, or an instruction that has no name and
that nothing reads. -/
def Call.Leaves (digits : Option Nat) (p : Program) (call : Call) (q : Program) : Prop :=
  q = { p with hits := p.hits + 1 } ∨
    ∃ i, call.Asks digits p i ∧ ¬i.op.Named digits ∧ p.find? i = none ∧ q = p.addInstruction i

/-- A call that asks for a leaf. -/
def Call.allocates : Call → Bool
  | alloc .. => true
  | emit .. => false

/-- How often instructions were asked for, going by the counters. -/
def emissionCount (p : Program) : Nat := p.instructionCount + p.hits

/-! ### One call -/

/-- A call that is refused late has counted, or has added its instruction. -/
theorem Call.RefusedLate.carryOut (h : call.RefusedLate digits p) :
    ∃ e q, call.carryOut digits p = .error e q ∧ call.Leaves digits p q := by
  obtain ⟨i, ⟨strict, c, shape, a, b, rfl, hnew⟩, hlate⟩ := h
  by_cases hnamed : i.op.Named digits
  · obtain ⟨hstrict, id, s, hconflict⟩ := hlate.resolve_left (not_not_intro hnamed)
    have hrun := hconflict.carryOut_under hnamed strict
    obtain rfl : strict = true := hstrict
    exact ⟨_, _, hrun, .inl rfl⟩
  · cases hfind : p.find? i with
    | some id =>
      cases hname : i.op.name digits with
      | ok name => exact absurd ⟨name, hname⟩ hnamed
      | error e =>
        exact ⟨e, _, (emit_of_known hnew hfind).trans (hit_of_unnamed hname strict), .inl rfl⟩
    | none =>
      obtain ⟨e, he⟩ := fresh_of_unnamed hnamed p
      exact ⟨e, _, (emit_of_unknown hnew hfind).trans he,
        .inr ⟨i, ⟨strict, c, shape, a, b, rfl, hnew⟩, hnamed, hfind, rfl⟩⟩

/-- A call that is refused for its arguments leaves the program as it was. -/
theorem eq_of_refused (h : ¬call.RefusedLate digits p) (hrun : call.carryOut digits p = .error e q) :
    q = p := by
  cases call with
  | alloc shape zero =>
    simp only [Call.carryOut, Program.alloc] at hrun
    split at hrun <;> cases hrun
    rfl
  | emit strict c shape a b =>
    simp only [Call.carryOut] at hrun
    cases hnew : p.newInstruction digits c shape a b with
    | error e' =>
      simp only [Program.emit, hnew] at hrun
      cases hrun
      rfl
    | ok i =>
      -- accepted arguments: the call is granted, whatever the flag, or refused late
      have hasks : Call.Asks digits p (.emit strict c shape a b) i :=
        ⟨strict, c, shape, a, b, rfl, hnew⟩
      have hnamed : i.op.Named digits := Decidable.byContradiction fun hunnamed =>
        h ⟨i, hasks, .inl hunnamed⟩
      by_cases hconflict : ∃ id s, Call.Conflict digits p (.emit strict c shape a b) i id s
      · have hstrict : strict = false :=
          Bool.eq_false_iff.mpr fun hs => h ⟨i, hasks, .inr ⟨hs, hconflict⟩⟩
        obtain ⟨id, s, hconflict⟩ := hconflict
        have hgranted := hconflict.carryOut_under hnamed strict
        rw [hstrict] at hgranted hrun
        cases hgranted.symm.trans hrun
      · obtain ⟨e', q', hok⟩ := emit_of_agreement hnew hnamed
          fun id s hc => hconflict ⟨id, s, hc⟩
        rw [hok] at hrun
        cases hrun

theorem emissionCount_of_leaves (h : call.Leaves digits p q) :
    q.leafCount = p.leafCount ∧ q.emissionCount = p.emissionCount + 1 := by
  rcases h with rfl | ⟨i, -, -, -, rfl⟩
  · exact ⟨rfl, rfl⟩
  · simp [leafCount, emissionCount, instructionCount, addInstruction, push, Cell.isLeaf,
      Nat.add_right_comm]

theorem refusedLate_iff : call.RefusedLate digits p ↔
    ∃ e q, call.carryOut digits p = .error e q ∧ q.emissionCount ≠ p.emissionCount := by
  constructor
  · intro h
    obtain ⟨e, q, he, hleaves⟩ := h.carryOut
    exact ⟨e, q, he, (emissionCount_of_leaves hleaves).2 ▸ Nat.succ_ne_self _⟩
  · rintro ⟨e, q, hrun, hcount⟩
    exact Classical.byContradiction fun h => hcount (by rw [eq_of_refused h hrun])

/-- A refused call leaves the program as it was exactly if it is refused for its arguments. -/
theorem refused_eq (hrun : call.carryOut digits p = .error e q) :
    (q = p ∨ call.Leaves digits p q) ∧ (q = p ↔ ¬call.RefusedLate digits p) := by
  by_cases h : call.RefusedLate digits p
  · obtain ⟨e', q', he, hleaves⟩ := h.carryOut
    rw [he] at hrun
    cases hrun
    have hne : q ≠ p := by
      rintro rfl
      exact Nat.succ_ne_self _ (emissionCount_of_leaves hleaves).2.symm
    exact ⟨.inr hleaves, fun heq => absurd heq hne, fun hn => absurd h hn⟩
  · have hq := eq_of_refused h hrun
    exact ⟨.inl hq, fun _ => h, fun _ => hq⟩

instance (digits : Option Nat) (p : Program) (call : Call) :
    Decidable (call.RefusedLate digits p) :=
  match hrun : call.carryOut digits p with
  | .ok e q => isFalse fun h => by
    obtain ⟨e', q', he, -⟩ := h.carryOut
    rw [hrun] at he
    cases he
  | .error e q =>
    if hcount : q.emissionCount = p.emissionCount then
      isFalse fun h => by
        obtain ⟨e', q', he, hne⟩ := refusedLate_iff.mp h
        rw [hrun] at he
        cases he
        exact hne hcount
    else isTrue (refusedLate_iff.mpr ⟨e, q, hrun, hcount⟩)

/-! ### Runs -/

/-- How many calls, made in turn, are refused late. -/
def lateRefusals (digits : Option Nat) (p : Program) : List Call → Nat
  | [] => 0
  | call :: calls =>
    (if call.RefusedLate digits p then 1 else 0) +
      lateRefusals digits (stateAfter (call.carryOut digits p)) calls

/-- The counters of a program are even with the grants, but for a number of emissions too many. -/
structure Balanced (r : Record) (excess : Nat) : Prop where
  leaves : r.program.leafCount = r.grants.countP fun g => g.call.allocates
  emissions : r.program.emissionCount = (r.grants.countP fun g => !g.call.allocates) + excess

theorem balanced_empty : Balanced {} 0 where
  leaves := rfl
  emissions := rfl

theorem Record.after_of_ok {r : Record} {a : Emission}
    (h : call.carryOut digits r.program = .ok a q) :
    r.after digits call = ⟨q, ⟨call, a.id⟩ :: r.grants⟩ := by
  simp only [Record.after, h]

theorem Record.after_of_error {r : Record} (h : call.carryOut digits r.program = .error e q) :
    r.after digits call = ⟨q, r.grants⟩ := by
  simp only [Record.after, h]

/-- One call keeps the balance, but if it is refused late, there is one more emission. -/
theorem Balanced.after {r : Record} {excess : Nat} (h : Balanced r excess) (call : Call) :
    Balanced (r.after digits call)
      (excess + if call.RefusedLate digits r.program then 1 else 0) := by
  obtain ⟨hleaves, hemissions⟩ := h
  cases hrun : call.carryOut digits r.program with
  | error e q =>
    rw [Record.after_of_error hrun]
    by_cases hrefused : call.RefusedLate digits r.program
    · obtain ⟨e', q', he, hleft⟩ := hrefused.carryOut
      rw [he] at hrun
      cases hrun
      obtain ⟨hleaf, hcount⟩ := emissionCount_of_leaves hleft
      rw [if_pos hrefused]
      exact ⟨hleaf.trans hleaves, hcount.trans (congrArg (· + 1) hemissions)⟩
    · rw [if_neg hrefused, eq_of_refused hrefused hrun]
      exact ⟨hleaves, hemissions⟩
  | ok a q =>
    rw [Record.after_of_ok hrun]
    have hgranted : ¬call.RefusedLate digits r.program := by
      intro hrefused
      obtain ⟨e', q', he, -⟩ := hrefused.carryOut
      rw [he] at hrun
      cases hrun
    rw [if_neg hgranted]
    cases call with
    | alloc shape zero =>
      obtain ⟨hleaf, hinstructions, hhits⟩ := counts_of_alloc hrun
      rw [emissionCount] at hemissions
      constructor
      · simp [Call.allocates, hleaf, hleaves]
      · simp [Call.allocates, emissionCount, hinstructions, hhits, hemissions]
    | emit strict c shape source1 source2 =>
      obtain ⟨hleaf, hemitted⟩ := counts_of_emit hrun
      rw [emissionCount] at hemissions
      constructor
      · simp [Call.allocates, hleaf, hleaves]
      · simp only [List.countP_cons, Call.allocates, Bool.not_false, if_true,
          emissionCount] at hemissions ⊢
        omega

theorem Balanced.foldl {r : Record} {excess : Nat} (h : Balanced r excess) (calls : List Call) :
    Balanced (calls.foldl (Record.after digits) r)
      (excess + lateRefusals digits r.program calls) := by
  induction calls generalizing r excess with
  | nil => exact h
  | cons call calls ih =>
    have hcall : Balanced (r.after digits call) _ := h.after call
    have hafter := ih hcall
    rw [Record.program_after, Nat.add_assoc] at hafter
    exact hafter

theorem run_balanced (digits : Option Nat) (calls : List Call) :
    Balanced (run digits calls) (lateRefusals digits {} calls) := by
  have h : Balanced (run digits calls) (0 + lateRefusals digits {} calls) :=
    balanced_empty.foldl calls
  rwa [Nat.zero_add] at h

theorem lateRefusals_eq_zero_iff {r : Record} {calls : List Call} :
    lateRefusals digits r.program calls = 0 ↔
      ∀ (n : Nat), ∀ call ∈ calls[n]?,
        ¬call.RefusedLate digits ((calls.take n).foldl (Record.after digits) r).program := by
  induction calls generalizing r with
  | nil => simp [lateRefusals]
  | cons call calls ih =>
    have hhead : (if call.RefusedLate digits r.program then 1 else 0) = 0 ↔
        ¬call.RefusedLate digits r.program := by
      split <;> simp [*]
    rw [lateRefusals, Nat.add_eq_zero_iff, hhead, ← Record.program_after, ih]
    constructor
    · rintro ⟨hcall, hcalls⟩ (_ | n) call' hcall'
      · cases hcall'
        exact hcall
      · exact hcalls n call' hcall'
    · intro h
      exact ⟨h 0 call rfl, fun n call' hcall' => h (n + 1) call' hcall'⟩

/-- Whatever calls are made on a new program, a call that is refused changes nothing exactly if it
is refused for its arguments; refused late, it has counted as a hit, or has added an instruction
whose operation has no name. There are as many leaves as granted allocations, and as many
instructions and hits as granted emissions and late refusals; so the two are even with the grants
exactly in runs where no call is refused late. -/
theorem emissions_balance_iff (digits : Option Nat) (calls : List Call) :
    let r := run digits calls
    (∀ (call : Call) e q, call.carryOut digits r.program = .error e q →
      (q = r.program ∨ call.Leaves digits r.program q) ∧
        (q = r.program ↔ ¬call.RefusedLate digits r.program)) ∧
    r.program.leafCount = r.grants.countP (fun g => g.call.allocates) ∧
    r.program.instructionCount + r.program.hits =
      r.grants.countP (fun g => !g.call.allocates) + lateRefusals digits {} calls ∧
    (r.program.instructionCount + r.program.hits =
        r.grants.countP (fun g => !g.call.allocates) ↔
      ∀ (n : Nat), ∀ call ∈ calls[n]?,
        ¬call.RefusedLate digits (run digits (calls.take n)).program) := by
  intro r
  obtain ⟨hleaves, hemissions⟩ := run_balanced digits calls
  rw [emissionCount] at hemissions
  refine ⟨fun call e q hrun => refused_eq hrun, hleaves, hemissions, ?_⟩
  have hzero : lateRefusals digits {} calls = 0 ↔
      ∀ (n : Nat), ∀ call ∈ calls[n]?,
        ¬call.RefusedLate digits (run digits (calls.take n)).program :=
    lateRefusals_eq_zero_iff (r := {})
  rw [← hzero]
  simp only [r]
  omega

/-- A negation is emitted, and asked for again under strict shapes in another shape: the call is
refused, and it has counted as a hit although only one emission was granted. -/
theorem refused_hit_counts :
    let leaf : Call := .alloc (.tuple [.int 2]) false
    let first : Call := .emit true (.op (.primitive .neg)) (.tuple [.int 2]) 1 0
    let other : Call := .emit true (.op (.primitive .neg)) (.tuple [.int 3]) 1 0
    let before := (run (some 4300) [leaf, first]).program
    let r := run (some 4300) [leaf, first, other]
    (∃ e q, other.carryOut (some 4300) before = .error e q ∧ q ≠ before) ∧
      r.program.instructionCount + r.program.hits = 2 ∧
      r.grants.countP (fun g => !g.call.allocates) = 1 := by
  intro leaf first other before r
  let i : Instruction := ⟨.primitive .neg, ⟨[2]⟩, .one 1⟩
  let j : Instruction := ⟨.primitive .neg, ⟨[3]⟩, .one 1⟩
  let one : Program := push {} (.leaf ⟨[2]⟩ false)
  have hdefined : i.op.isUndefined = false := by decide
  have hempty : one.find? i = none := by
    simp only [find?, hdefined]
    exact Std.HashMap.getElem?_empty
  have hfirst : first.carryOut (some 4300) one = fresh (some 4300) i one := by
    have hnew : one.newInstruction (some 4300) (.op (.primitive .neg)) (.tuple [.int 2]) 1 0 =
        .ok i := rfl
    exact emit_of_unknown hnew hempty
  have hrun : run (some 4300) [leaf, first] =
      ⟨stateAfter (fresh (some 4300) i one), [⟨first, 2⟩, ⟨leaf, 1⟩]⟩ :=
    Record.after_of_ok (r := ⟨one, [⟨leaf, 1⟩]⟩) hfirst
  have hconflict : other.Conflict (some 4300) before j 2 ⟨[2]⟩ := by
    simp only [before, hrun]
    refine ⟨⟨true, _, _, _, _, rfl, rfl⟩, ?_, rfl, by decide⟩
    exact find?_fresh (some 4300) one hdefined
  have hrefused := hconflict.carryOut_under (Op.named_primitive .neg) true
  have hr : r = ⟨{ before with hits := before.hits + 1 }, (run (some 4300) [leaf, first]).grants⟩ :=
    Record.after_of_error (r := run (some 4300) [leaf, first]) hrefused
  refine ⟨⟨_, _, hrefused, fun heq => ?_⟩, ?_, ?_⟩
  · exact Nat.succ_ne_self _ (congrArg Program.hits heq)
  · simp only [hr, before, hrun]
    rfl
  · simp only [hr, hrun]
    rfl

end TensorGraph.Program
