import TensorGraph.Proofs.Gradient.Request

/-!
# Faults of requests

A request for nodes of the arena that is not accepted has a first fault: the seed does not have the
shape of the output, or else something that is asked for is no parameter. The pass fails with the
error that says so. Corresponding requests have the same fault.
-/

namespace TensorGraph

namespace Request

/-- The error for a seed that does not have the shape of the output. -/
def seedFault? (a : Arena) (r : Request) : Option Error := do
  let m ← a.at? (← r.seed)
  let n ← a.at? r.output
  if m.shape = n.shape then none else some (.shapeMismatch .seed m.shape n.shape)

/-- The error for something that is asked for and is no parameter. -/
def paramFault? (a : Arena) (p : Int) : Option Error := do
  let m ← a.at? p
  if m.kind = .param then none else some (.kindMismatch m.kind .param)

/-- The error for the first of all that is asked for that is no parameter. -/
def wrtFault? (a : Arena) (r : Request) : Option Error := (r.wrt.getD []).findSome? (paramFault? a)

open Differentiation

variable {a : Arena} {k : ArenaId} {r r' : Request} {s : Differentiation} {n : Node} {err : Error}

theorem paramFault?_eq_none {p : Int} {m : Node} (hm : a.at? p = some m) :
    paramFault? a p = none ↔ m.kind = .param := by
  simp [paramFault?, hm]

section Faultless

variable (hover : r.Over a) (hn : a.at? r.output = some n) (hseed : r.seedFault? a = none)

include hover

theorem exists_at?_of_over {i : Int} (hi : i ∈ r.named) : ∃ m, a.at? i = some m := by
  obtain ⟨m, hm, rfl⟩ := hover i hi
  obtain ⟨node, hnode⟩ := Arena.exists_node? hm
  exact ⟨node, by rw [Arena.at?_ofNat, hnode]⟩

include hn hseed

theorem shape_of_faultless : ∀ g ∈ r.seed, ∃ m, a.at? g = some m ∧ m.shape = n.shape := by
  intro g hg
  have hmem : g ∈ r.named := List.mem_cons_of_mem _ (List.mem_append_left _ (by simpa using hg))
  obtain ⟨m, hm⟩ := exists_at?_of_over hover hmem
  simp only [seedFault?, Option.mem_def.mp hg, Option.bind_eq_bind, Option.bind_some, hm, hn,
    ite_eq_left_iff, reduceCtorEq, imp_false, not_not] at hseed
  exact ⟨m, hm, hseed⟩

/-- A request is accepted when it has no fault. -/
theorem accepted_of_faultless (hwrt : r.wrtFault? a = none) : r.Accepted a n := by
  refine ⟨hn, shape_of_faultless hover hn hseed, fun ps hps p hp => ?_⟩
  rw [wrtFault?, Option.mem_def.mp hps, Option.getD_some, List.findSome?_eq_none_iff] at hwrt
  have hmem : p ∈ r.wrt.getD [] := by
    rw [Option.mem_def.mp hps]
    exact hp
  obtain ⟨m, hm⟩ :=
    exists_at?_of_over hover (List.mem_cons_of_mem _ (List.mem_append_right _ hmem))
  exact ⟨m, hm, (paramFault?_eq_none hm).mp (hwrt p hp)⟩

end Faultless

/-! ### What a fault leads to -/

section Checks

variable (hk : s.context.arena = some k)

include hk

/-- A bound context admits the nodes of its arena. -/
theorem bind_operand (i : Int) : bind (operand k i) s = .ok ⟨k, i⟩ s := by
  rcases bind_bound hk (operand k i) with ⟨j, hj, hbind⟩ | ⟨hno, -⟩
  · cases hj
    exact hbind
  · exact absurd rfl (hno i)

theorem seedFor_of_fault (h : r.seedFault? s.arena = some err) :
    seedFor r.output (r.seedIn k) s = .error err s := by
  obtain ⟨g, hg, h⟩ := Option.bind_eq_some_iff.mp h
  obtain ⟨m, hm, h⟩ := Option.bind_eq_some_iff.mp h
  obtain ⟨n, hn, h⟩ := Option.bind_eq_some_iff.mp h
  have hshape : m.shape ≠ n.shape := fun heq => by simp [heq] at h
  rw [if_neg hshape] at h
  cases h
  simp only [seedFor, seedIn, hg, Option.map_some]
  rw [bind_of_ok (bind_operand hk g), bind_of_ok (nodeAt_ok hm), bind_of_ok (nodeAt_ok hn),
    if_pos hshape]
  rfl

/-- Something that is asked for is collected if it is a parameter. -/
theorem collect_operand (targets : Std.HashSet Int) {p : Int} {m : Node}
    (hm : s.arena.at? p = some m) : collect targets (operand k p) s =
      match paramFault? s.arena p with
      | some err => .error err s
      | none => .ok (targets.insert p) s := by
  simp only [collect]
  rw [bind_of_ok (bind_operand hk p)]
  by_cases hkind : m.kind = .param
  · have hexpect : expect .param p s = .ok () s := by
      simp only [expect, Arena.expect, hm, if_pos hkind]
    rw [bind_of_ok hexpect, (paramFault?_eq_none hm).mpr hkind]
    rfl
  · have hexpect : expect .param p s = .error (.kindMismatch m.kind .param) s := by
      simp only [expect, Arena.expect, hm, if_neg hkind]
    have hfault : paramFault? s.arena p = some (.kindMismatch m.kind .param) := by
      simp [paramFault?, hm, hkind]
    rw [bind_of_error hexpect, hfault]

/-- Collecting stops at the first fault. -/
theorem foldlM_collect_of_fault {ps : List Int} (hps : ∀ p ∈ ps, ∃ m, s.arena.at? p = some m)
    (targets : Std.HashSet Int) (h : ps.findSome? (paramFault? s.arena) = some err) :
    (ps.map (operand k)).foldlM collect targets s = .error err s := by
  induction ps generalizing targets with
  | nil => cases h
  | cons p ps ih =>
    obtain ⟨m, hm⟩ := hps p (List.mem_cons_self ..)
    have hfirst := collect_operand hk targets hm
    rw [List.findSome?_cons] at h
    rw [List.map_cons, List.foldlM_cons]
    cases hp : paramFault? s.arena p with
    | some err' =>
      rw [hp] at h hfirst
      cases h
      exact bind_of_error hfirst
    | none =>
      rw [hp] at h hfirst
      rw [bind_of_ok hfirst]
      exact ih (fun q hq => hps q (List.mem_cons_of_mem p hq)) _ h

theorem targets?_of_fault (hwrt : ∀ ps ∈ r.wrt, ∀ p ∈ ps, ∃ m, s.arena.at? p = some m)
    (h : r.wrtFault? s.arena = some err) : targets? (r.wrtIn k) s = .error err s := by
  simp only [wrtFault?] at h
  simp only [wrtIn]
  cases hps : r.wrt with
  | none =>
    rw [hps] at h
    cases h
  | some ps =>
    rw [hps] at h
    exact bind_of_error (foldlM_collect_of_fault hk (hwrt ps hps) ∅ h)

end Checks

section Refused

variable (hover : r.Over s.arena) (henabled : s.context.requiresGrad = true)
  (hbound : ∀ b, s.context.arena = some b → b = k)

include henabled hbound

/-- A request is checked once the context is bound. -/
theorem backward_eq_pass : r.backward k s =
    pass r.output (r.seedIn k) (r.wrtIn k) ⟨s.arena, { s.context with arena := some k }⟩ := by
  rw [Request.backward, Differentiation.backward_eq _ _ _ henabled]
  rcases bind_cases (operand k r.output) s with ⟨e, hadmits, hbind⟩ | ⟨hno, -⟩
  · cases hadmits.1
    rw [bind_of_ok hbind]
  · exact absurd ⟨rfl, hbound⟩ (hno ⟨k, r.output⟩)

/-- A request that is refused for its seed leaves the arena alone. -/
theorem backward_of_seedFault (h : r.seedFault? s.arena = some err) :
    r.backward k s = .error err ⟨s.arena, { s.context with arena := some k }⟩ := by
  rw [backward_eq_pass henabled hbound]
  exact bind_of_error (seedFor_of_fault
    (s := ⟨s.arena, { s.context with arena := some k }⟩) rfl h)

include hover

/-- A request that is refused for what it asks for leaves a default seed. -/
theorem backward_of_wrtFault (hn : s.arena.at? r.output = some n)
    (hseed : r.seedFault? s.arena = none) (h : r.wrtFault? s.arena = some err) :
    r.backward k s = .error err
      ⟨seeded s.arena n.shape (r.seedIn k), { s.context with arena := some k }⟩ := by
  have hkept := extends_seeded s.arena n.shape (r.seedIn k)
  -- what is asked for was there before a default seed was appended
  have hat : ∀ p ∈ r.wrt.getD [], ∃ m, s.arena.at? p = some m ∧
      (seeded s.arena n.shape (r.seedIn k)).at? p = some m := by
    intro p hp
    obtain ⟨i, hi, rfl⟩ := hover p (List.mem_cons_of_mem _ (List.mem_append_right _ hp))
    obtain ⟨m, hm⟩ := Arena.exists_node? hi
    exact ⟨m, by rw [Arena.at?_ofNat, hm], by rw [Arena.at?_ofNat, hkept i m hm]⟩
  have hfault : r.wrtFault? (seeded s.arena n.shape (r.seedIn k)) = some err := by
    rw [← h, wrtFault?, wrtFault?, ← List.head?_filterMap, ← List.head?_filterMap]
    refine congrArg List.head? (List.filterMap_congr fun p hp => ?_)
    obtain ⟨m, hm, hm'⟩ := hat p hp
    simp only [paramFault?, hm, hm']
  have hfits : SeedFits s.arena k n.shape (r.seedIn k) := by
    intro o ho
    obtain ⟨g, hg, rfl⟩ := Option.map_eq_some_iff.mp ho
    obtain ⟨m, hm, hshape⟩ := shape_of_faultless hover hn hseed g hg
    exact ⟨g, m, rfl, hm, hshape⟩
  rw [backward_eq_pass henabled hbound]
  rcases seedFor_cases (s := ⟨s.arena, { s.context with arena := some k }⟩) rfl hn (r.seedIn k) with
    ⟨-, hok⟩ | ⟨hno, -⟩
  · refine (bind_of_ok hok).trans (bind_of_error (targets?_of_fault rfl ?_ hfault))
    intro ps hps p hp
    obtain ⟨m, -, hm⟩ := hat p (by rw [Option.mem_def.mp hps]; exact hp)
    exact ⟨m, hm⟩
  · exact absurd hfits hno

end Refused

namespace Matches

variable {E : Embedding}

theorem seedFault?_eq (h : r.Matches E r') : r'.seedFault? E.outer = r.seedFault? E.inner := by
  have hseed := h.seed
  obtain ⟨n, hn, hn'⟩ := exists_at? h.output
  simp only [seedFault?, hn, hn']
  generalize r.seed = g at hseed
  generalize r'.seed = g' at hseed
  cases hseed with
  | none => rfl
  | some hgh =>
    obtain ⟨m, hm, hm'⟩ := exists_at? hgh
    simp only [Option.bind_eq_bind, Option.bind_some, hm, hm']
    rfl

theorem paramFault?_eq {p p' : Int} (h : E.Matches p p') :
    paramFault? E.outer p' = paramFault? E.inner p := by
  obtain ⟨m, hm, hm'⟩ := exists_at? h
  simp [paramFault?, hm, hm']

theorem wrtFault?_eq (h : r.Matches E r') : r'.wrtFault? E.outer = r.wrtFault? E.inner := by
  have hwrt := h.wrt
  simp only [wrtFault?]
  generalize r.wrt = ps at hwrt
  generalize r'.wrt = ps' at hwrt
  cases hwrt with
  | none => rfl
  | some hps =>
    simp only [Option.getD_some]
    induction hps with
    | nil => rfl
    | cons hpq _ ih => rw [List.findSome?_cons, List.findSome?_cons, paramFault?_eq hpq, ih]

end Matches

end Request

end TensorGraph
