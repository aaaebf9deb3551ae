import Mathlib.Data.List.Induction
import TensorGraph.Proofs.Program.Readers

/-!
# Strict shapes

The key of an instruction does not hold its shape, so a call may ask for a known instruction in
another shape than the recorded one. Such a call conflicts with the program: under strict shapes it
is refused, and otherwise the recorded shape stands. It is the only call to which strictness makes
a difference, and it makes none to the program: the hit has been counted before the shapes are
compared, and the readers that are entered afterwards have been there since the instruction was
emitted. Where the operation has no name, strictness makes no difference at all: the call fails
either way.
-/

namespace TensorGraph.Program

variable {digits : Option Nat} {p : Program} {call : Call} {i : Instruction} {id : Nat} {s : Shape}

/-! ### Conflicts -/

/-- The same call under a flag. -/
def Call.under (strict : Bool) : Call → Call
  | alloc shape zero => alloc shape zero
  | emit _ c shape source1 source2 => emit strict c shape source1 source2

def Call.strict : Call → Bool
  | alloc .. => false
  | emit strict .. => strict

theorem Call.under_strict (call : Call) : call.under call.strict = call := by
  cases call <;> rfl

/-- The arguments of a call are those of an instruction. -/
def Call.Asks (digits : Option Nat) (p : Program) (call : Call) (i : Instruction) : Prop :=
  ∃ strict c shape source1 source2, call = .emit strict c shape source1 source2 ∧
    p.newInstruction digits c shape source1 source2 = .ok i

/-- A call asks for an instruction that is known under an id, where another shape is recorded. -/
structure Call.Conflict (digits : Option Nat) (p : Program) (call : Call) (i : Instruction)
    (id : Nat) (s : Shape) : Prop where
  asks : call.Asks digits p i
  known : p.find? i = some id
  recorded : (p.cell? id).map Cell.shape = some s
  differs : s ≠ i.shape

theorem hit_of_unnamed {e : Error} (h : i.op.name digits = .error e) (strict : Bool) :
    hit digits strict i id p = .error e { p with hits := p.hits + 1 } := by
  simp only [hit, h]

theorem hit_of_differs (hrecorded : (p.cell? id).map Cell.shape = some s) (hne : s ≠ i.shape)
    (hnamed : i.op.Named digits) (strict : Bool) :
    hit digits strict i id p =
      if strict then .error (mismatch digits i.op.text i s) { p with hits := p.hits + 1 }
      else .ok (.hit id i) (addUsers { p with hits := p.hits + 1 } id i.sources.toList) := by
  obtain ⟨name, hname⟩ := hnamed
  obtain ⟨-, -, rfl⟩ := Op.name_eq_ok_iff.mp hname
  have hcell : cell? { p with hits := p.hits + 1 } id = p.cell? id := cell?_congr rfl id
  cases strict <;> simp [hit, hname, hcell, hrecorded, hne]

theorem hit_of_agrees (hrecorded : ((p.cell? id).map Cell.shape).getD i.shape = i.shape)
    (hnamed : i.op.Named digits) (strict : Bool) :
    hit digits strict i id p =
      .ok (.hit id i) (addUsers { p with hits := p.hits + 1 } id i.sources.toList) := by
  obtain ⟨name, hname⟩ := hnamed
  have hcell : cell? { p with hits := p.hits + 1 } id = p.cell? id := cell?_congr rfl id
  simp [hit, hname, hcell, hrecorded]

theorem Call.Conflict.carryOut_under (h : call.Conflict digits p i id s) (hnamed : i.op.Named digits)
    (strict : Bool) :
    (call.under strict).carryOut digits p =
      if strict then .error (mismatch digits i.op.text i s) { p with hits := p.hits + 1 }
      else .ok (.hit id i) (addUsers { p with hits := p.hits + 1 } id i.sources.toList) := by
  obtain ⟨⟨_, c, shape, a, b, rfl, hnew⟩, hknown, hrecorded, hne⟩ := h
  exact (emit_of_known hnew hknown).trans (hit_of_differs hrecorded hne hnamed strict)

/-- Without a name a call that conflicts fails as any other does, under either flag. -/
theorem Call.Conflict.carryOut_unnamed (h : call.Conflict digits p i id s) {e : Error}
    (hname : i.op.name digits = .error e) (strict : Bool) :
    (call.under strict).carryOut digits p = .error e { p with hits := p.hits + 1 } := by
  obtain ⟨⟨_, c, shape, a, b, rfl, hnew⟩, hknown, -⟩ := h
  exact (emit_of_known hnew hknown).trans (hit_of_unnamed hname strict)

/-- Where no other shape is recorded, strictness makes no difference to a hit. -/
theorem hit_of_agreement {strict' : Bool} {c : Op.Candidate} {shape : Value} {a b : Int}
    (hnew : p.newInstruction digits c shape a b = .ok i) (hfind : p.find? i = some id)
    (h : ∀ s, ¬(Call.emit strict' c shape a b).Conflict digits p i id s) :
    ((p.cell? id).map Cell.shape).getD i.shape = i.shape := by
  cases hs : (p.cell? id).map Cell.shape with
  | none => rfl
  | some s =>
    exact Decidable.byContradiction fun hne =>
      h s ⟨⟨strict', c, shape, a, b, rfl, hnew⟩, hfind, hs, hne⟩

/-- An instruction that can be read and has a name is emitted, strictly or not, unless it
conflicts. -/
theorem emit_of_agreement {strict : Bool} {c : Op.Candidate} {shape : Value} {a b : Int}
    (hnew : p.newInstruction digits c shape a b = .ok i) (hnamed : i.op.Named digits)
    (h : ∀ id s, ¬(Call.emit strict c shape a b).Conflict digits p i id s) :
    ∃ e q, ∀ strict', emit digits strict' c shape a b p = .ok e q := by
  cases hfind : p.find? i with
  | none =>
    exact ⟨_, _, fun _ => (emit_of_unknown hnew hfind).trans (fresh_of_named hnamed p)⟩
  | some id =>
    have hagrees := hit_of_agreement hnew hfind (h id)
    exact ⟨_, _, fun strict' =>
      (emit_of_known hnew hfind).trans (hit_of_agrees hagrees hnamed strict')⟩

/-- Strictness makes no difference to a call without a conflict. -/
theorem Call.carryOut_of_agreement (h : ∀ i id s, ¬call.Conflict digits p i id s) (strict : Bool) :
    (call.under strict).carryOut digits p = call.carryOut digits p := by
  cases call with
  | alloc shape zero => rfl
  | emit strict' c shape a b =>
    simp only [Call.under, Call.carryOut]
    cases hnew : p.newInstruction digits c shape a b with
    | error e => simp only [Program.emit, hnew]
    | ok i =>
      cases hname : i.op.name digits with
      | ok name =>
        obtain ⟨e, q, hok⟩ := emit_of_agreement hnew ⟨name, hname⟩ (h i)
        rw [hok, hok]
      | error e =>
        cases hfind : p.find? i with
        | none => rw [emit_of_unknown hnew hfind, emit_of_unknown hnew hfind]
        | some id =>
          rw [emit_of_known hnew hfind, emit_of_known hnew hfind, hit_of_unnamed hname,
            hit_of_unnamed hname]

theorem Call.under_of_agreement (h : ∀ i id s, ¬call.Conflict digits p i id s)
    (strict strict' : Bool) :
    (call.under strict).carryOut digits p = (call.under strict').carryOut digits p := by
  rw [carryOut_of_agreement h strict, carryOut_of_agreement h strict']

/-! ### Readers of a known instruction -/

theorem addUser_of_mem {user source : Nat} (h : user ∈ p.usersOf source) :
    p.addUser user source = p := by
  have hsame : p.users.modify (source - 1)
      (fun us => if us.contains user then us else us.push user) = p.users := by
    refine Array.ext_getElem? fun k => ?_
    rw [Array.getElem?_modify]
    split
    · rename_i hk
      subst hk
      simp only [usersOf, Array.getD_eq_getD_getElem?] at h
      split at h
      · cases h
      cases hus : p.users[source - 1]? with
      | none => rfl
      | some us =>
        have hmem : user ∈ us := by simpa [hus] using h
        simp [hmem]
    · rfl
  simp only [addUser, hsame]

theorem addUsers_of_mem {user : Nat} {sources : List Nat}
    (h : ∀ source ∈ sources, user ∈ p.usersOf source) : p.addUsers user sources = p := by
  induction sources with
  | nil => rfl
  | cons source sources ih =>
    have hhead : p.addUser user source = p := addUser_of_mem (h source (List.mem_cons_self ..))
    change (p.addUser user source).addUsers user sources = p
    rw [hhead]
    exact ih fun t ht => h t (List.mem_cons_of_mem source ht)

/-- An instruction with a name that is found has been entered for everything that it reads. -/
theorem Indexed.addUsers_of_known (h : p.Indexed digits) (hfind : p.find? i = some id)
    (hnamed : i.op.Named digits) :
    addUsers { p with hits := p.hits + 1 } id i.sources.toList =
      { p with hits := p.hits + 1 } := by
  obtain ⟨j, hj, hkey⟩ := find?_ok h.sound hfind
  have hsources : j.sources = i.sources := congrArg Key.sources hkey
  have hname : j.op.Named digits := (Op.named_congr (congrArg Key.signature hkey)).mpr hnamed
  refine addUsers_of_mem fun source hsource => ?_
  change id ∈ p.usersOf source
  rw [h.usersOf]
  exact mem_readers.mpr ⟨j, mem_schedule.mpr hj, hsources ▸ hsource, hname⟩

/-- A conflict is refused under strict shapes; otherwise it is a hit, and no reader is new. -/
theorem Indexed.carryOut_of_conflict (h : p.Indexed digits)
    (hconflict : call.Conflict digits p i id s) (hnamed : i.op.Named digits) (strict : Bool) :
    (call.under strict).carryOut digits p =
      if strict then .error (mismatch digits i.op.text i s) { p with hits := p.hits + 1 }
      else .ok (.hit id i) { p with hits := p.hits + 1 } := by
  rw [hconflict.carryOut_under hnamed, h.addUsers_of_known hconflict.known hnamed]

/-- Where a call gives an id under either flag, it gives the same under both. -/
theorem Indexed.id_eq_of_granted (h : p.Indexed digits) {strict strict' : Bool} {e e' : Emission}
    {q q' : Program} (he : (call.under strict).carryOut digits p = .ok e q)
    (he' : (call.under strict').carryOut digits p = .ok e' q') : e'.id = e.id := by
  by_cases hconflict : ∃ i id s, call.Conflict digits p i id s
  · obtain ⟨i, id, s, hconflict⟩ := hconflict
    have hid : ∀ {flag e q}, (call.under flag).carryOut digits p = .ok e q → e.id = id := by
      intro flag e q he
      cases hname : i.op.name digits with
      | error e' => cases (hconflict.carryOut_unnamed hname flag).symm.trans he
      | ok name =>
        rw [h.carryOut_of_conflict hconflict ⟨name, hname⟩] at he
        cases flag <;> cases he
        rfl
    rw [hid he, hid he']
  · have hagree : ∀ i id s, ¬call.Conflict digits p i id s :=
      fun i id s hc => hconflict ⟨i, id, s, hc⟩
    rw [Call.under_of_agreement hagree strict strict', he'] at he
    cases he
    rfl

/-! ### Runs under two flags -/

/-- Calls made in turn, each under the flag that stands when it is made. -/
def under (flags : Nat → Bool) (calls : List Call) : List Call :=
  calls.mapIdx fun n call => call.under (flags n)

theorem under_snoc (flags : Nat → Bool) (calls : List Call) (call : Call) :
    under flags (calls ++ [call]) = under flags calls ++ [call.under (flags calls.length)] :=
  List.mapIdx_concat

theorem run_snoc (digits : Option Nat) (calls : List Call) (call : Call) :
    run digits (calls ++ [call]) = (run digits calls).after digits call := by
  simp [run]

/-- The program that a call leaves does not depend on strictness. -/
theorem Indexed.stateAfter_under (h : p.Indexed digits) (call : Call) (strict : Bool) :
    stateAfter ((call.under strict).carryOut digits p) = stateAfter (call.carryOut digits p) := by
  by_cases hconflict : ∃ i id s, call.Conflict digits p i id s
  · obtain ⟨i, id, s, hconflict⟩ := hconflict
    have hleft : ∀ flag, stateAfter ((call.under flag).carryOut digits p) =
        { p with hits := p.hits + 1 } := by
      intro flag
      cases hname : i.op.name digits with
      | error e =>
        rw [hconflict.carryOut_unnamed hname]
        rfl
      | ok name =>
        rw [h.carryOut_of_conflict hconflict ⟨name, hname⟩]
        cases flag <;> rfl
    rw [hleft, ← hleft call.strict, Call.under_strict]
  · have hagree : ∀ i id s, ¬call.Conflict digits p i id s :=
      fun i id s hc => hconflict ⟨i, id, s, hc⟩
    rw [Call.carryOut_of_agreement hagree strict]

theorem program_run_under (digits : Option Nat) (flags : Nat → Bool) (calls : List Call) :
    (run digits (under flags calls)).program = (run digits calls).program := by
  induction calls using List.reverseRecOn with
  | nil => rfl
  | append_singleton calls call ih =>
    rw [under_snoc, run_snoc, run_snoc, Record.program_after, Record.program_after, ih]
    exact (run_indexed digits calls).stateAfter_under call _

/-- The mismatch is told as such unless a dimension is too long for the message. -/
theorem mismatch_of_fits {name : String} (hrecorded : (Value.shape s).isTooLong digits = false)
    (hshape : (Value.shape i.shape).isTooLong digits = false) :
    mismatch digits name i s =
      .shapeMismatch (.emission name i.sources.first i.sources.second) s i.shape := by
  have hstated : ((Value.shape s).signature ++ (Value.shape i.shape).signature).any
      (Value.Token.isTooLong digits) = false := by
    rw [List.any_append]
    exact Bool.or_eq_false_iff.mpr ⟨hrecorded, hshape⟩
  simp only [mismatch, Error.raised, Error.stated, hstated]
  rfl

/-- What calls leave behind, and what they answer, whatever flags stand when they are made. After
every call the programs of two runs are the same: their cells, known keys and readers, hence the
next id and what an export gives. A call answers the same in both unless it conflicts and its
operation has a name; then it is refused exactly where shapes are strict, for the mismatch if the
message can be written, and it gives the recorded instruction where they are not. So where it gives
an id in both, it gives the same. -/
theorem strictness_decides_refusals (digits : Option Nat) (calls : List Call)
    (flags flags' : Nat → Bool) (n : Nat) :
    let p := (run digits (under flags (calls.take n))).program
    let q := (run digits (under flags' (calls.take n))).program
    q = p ∧ q.size = p.size ∧ q.exported digits = p.exported digits ∧ ∀ call ∈ calls[n]?,
      ((∀ i id s, call.Conflict digits p i id s → ¬i.op.Named digits) →
        (call.under (flags n)).carryOut digits p = (call.under (flags' n)).carryOut digits q) ∧
      (∀ i id s, call.Conflict digits p i id s → i.op.Named digits → ∀ strict,
        ((call.under strict).carryOut digits p =
          if strict then .error (mismatch digits i.op.text i s) { p with hits := p.hits + 1 }
          else .ok (.hit id i) { p with hits := p.hits + 1 }) ∧
        ((Value.shape s).isTooLong digits = false →
          (Value.shape i.shape).isTooLong digits = false → mismatch digits i.op.text i s =
            .shapeMismatch (.emission i.op.text i.sources.first i.sources.second) s i.shape)) ∧
      ∀ e p' e' q', (call.under (flags n)).carryOut digits p = .ok e p' →
        (call.under (flags' n)).carryOut digits q = .ok e' q' → e'.id = e.id := by
  intro p q
  have hq : q = p := by
    simp only [p, q, program_run_under]
  have hp : p.Indexed digits := run_indexed _ _
  rw [hq]
  refine ⟨rfl, rfl, rfl, fun call _ => ⟨fun h => ?_, fun i id s h hnamed strict => ?_, ?_⟩⟩
  · by_cases hconflict : ∃ i id s, call.Conflict digits p i id s
    · obtain ⟨i, id, s, hconflict⟩ := hconflict
      cases hname : i.op.name digits with
      | ok name => exact absurd ⟨name, hname⟩ (h i id s hconflict)
      | error e => rw [hconflict.carryOut_unnamed hname, hconflict.carryOut_unnamed hname]
    · exact Call.under_of_agreement (fun i id s hc => hconflict ⟨i, id, s, hc⟩) _ _
  · exact ⟨hp.carryOut_of_conflict h hnamed strict, mismatch_of_fits⟩
  · exact fun e p' e' q' he he' => hp.id_eq_of_granted he he'

/-- Asked for again in another shape, a flip along an axis that is too long for a text conflicts with
the recorded one, and what it fails for is no mismatch of shapes, whether they are strict or not. -/
theorem longFlip_conflict :
    let p := (run (some 4300) longFlipCalls).program
    let other : Call := .emit true (.op longFlip.op) (.tuple [.int 3]) 1 0
    (∃ i id s, other.Conflict (some 4300) p i id s) ∧ ∀ strict : Bool,
      (other.under strict).carryOut (some 4300) p =
        .error .integerTooLong { p with hits := p.hits + 1 } := by
  intro p other
  have hp : p = (push {} (.leaf ⟨[2]⟩ false)).addInstruction longFlip := program_longFlip
  have hconflict : other.Conflict (some 4300) p { longFlip with shape := ⟨[3]⟩ } 2 ⟨[2]⟩ := by
    rw [hp]
    refine ⟨⟨true, _, _, _, _, rfl, rfl⟩, ?_, rfl, by decide⟩
    have hdefined : longFlip.op.isUndefined = false := rfl
    simp only [find?, hdefined]
    exact Std.HashMap.getElem?_insert_self
  exact ⟨⟨_, _, _, hconflict⟩, hconflict.carryOut_unnamed name_longFlip⟩

end TensorGraph.Program
