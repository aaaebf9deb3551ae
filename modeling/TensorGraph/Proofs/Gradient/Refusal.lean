import TensorGraph.Proofs.Gradient.Backward

/-!
# Why a pass is refused

A pass that is not accepted fails in one of its checks, and its error says in which. There is no
other reason, and an accepted pass has none.
-/

namespace TensorGraph

/-- The arena that a context is bound to once it was asked about an operand. -/
def Context.home? (c : Context) (o : Operand) : Option ArenaId :=
  c.arena.or (o.expr?.map Expr.arena)

theorem Context.Admits.home? {c : Context} {o : Operand} {e : Expr} (h : c.Admits o e) :
    c.home? o = some e.arena := by
  obtain ⟨rfl, hbound⟩ := h
  simp only [Context.home?]
  cases hc : c.arena with
  | none => rfl
  | some a => exact congrArg some (hbound a hc)

namespace Differentiation

/-- All that a pass is given. -/
def arguments (output : Operand) (seed : Option Operand) (wrt : Option (List Operand)) :
    List Operand :=
  output :: (seed.toList ++ wrt.getD [])

/-- What a pass is refused for, with the error that says so. What is asked for is looked up after a
default seed was appended. -/
inductive Objection (s : Differentiation) (output : Operand) (seed : Option Operand)
    (wrt : Option (List Operand)) : Error → Prop
  | disabled (h : s.context.requiresGrad = false) : Objection s output seed wrt .gradientDisabled
  | notAnExpr {type : TypeName} (h : .other type ∈ arguments output seed wrt) :
    Objection s output seed wrt (.notAnExpr type)
  | foreign {k : ArenaId} {e : Expr} (home : s.context.home? output = some k)
    (h : .expr e ∈ arguments output seed wrt) (ne : e.arena ≠ k) :
    Objection s output seed wrt .foreignContext
  | absent {k : ArenaId} {i : Int} (home : s.context.home? output = some k)
    (h : .expr ⟨k, i⟩ ∈ output :: seed.toList) (absent : s.arena.at? i = none) :
    Objection s output seed wrt (.absent i)
  | seedShape {k : ArenaId} {i g : Int} {n m : Node} (home : s.context.home? output = some k)
    (houtput : output = .expr ⟨k, i⟩) (hseed : seed = some (.expr ⟨k, g⟩))
    (node : s.arena.at? i = some n) (seedNode : s.arena.at? g = some m)
    (ne : m.shape ≠ n.shape) :
    Objection s output seed wrt (.shapeMismatch .seed m.shape n.shape)
  | absentTarget {k : ArenaId} {i p : Int} {n : Node} (home : s.context.home? output = some k)
    (houtput : output = .expr ⟨k, i⟩) (node : s.arena.at? i = some n)
    (h : .expr ⟨k, p⟩ ∈ wrt.getD []) (absent : (seeded s.arena n.shape seed).at? p = none) :
    Objection s output seed wrt (.absent p)
  | notParam {k : ArenaId} {i p : Int} {n m : Node} (home : s.context.home? output = some k)
    (houtput : output = .expr ⟨k, i⟩) (node : s.arena.at? i = some n)
    (h : .expr ⟨k, p⟩ ∈ wrt.getD []) (target : (seeded s.arena n.shape seed).at? p = some m)
    (ne : m.kind ≠ .param) :
    Objection s output seed wrt (.kindMismatch m.kind .param)

section Errors

variable {s t : Differentiation} {k : ArenaId} {err : Error} {o output : Operand}
  {seed : Option Operand} {wrt : Option (List Operand)}

/-! ### Single checks -/

theorem bind_error (h : bind o s = .error err t) :
    (∃ type, o = .other type ∧ err = .notAnExpr type) ∨
      ∃ e k, o = .expr e ∧ s.context.arena = some k ∧ e.arena ≠ k ∧ err = .foreignContext := by
  obtain ⟨a, c⟩ := s
  cases o with
  | other type =>
    cases h
    exact Or.inl ⟨type, rfl, rfl⟩
  | expr e =>
    simp only [bind, inContext, Context.bind] at h
    cases hc : c.arena with
    | none =>
      simp only [hc] at h
      cases h
    | some k =>
      by_cases hk : k = e.arena
      · simp only [hc, if_pos hk] at h
        cases h
      · simp only [hc, if_neg hk] at h
        cases h
        exact Or.inr ⟨e, k, rfl, rfl, Ne.symm hk, rfl⟩

/-- A bound context refuses a value for what it is, or for its arena. -/
theorem bind_objects (hk : s.context.arena = some k) (h : bind o s = .error err t) :
    (∃ type, o = .other type ∧ err = .notAnExpr type) ∨
      ∃ e, o = .expr e ∧ e.arena ≠ k ∧ err = .foreignContext := by
  rcases bind_error h with hother | ⟨e, k', ho, hk', hne, herr⟩
  · exact Or.inl hother
  · cases hk.symm.trans hk'
    exact Or.inr ⟨e, ho, hne, herr⟩

/-- What is wrong with a seed, or with the output that it is a seed of. -/
theorem seedFor_error (hk : s.context.arena = some k) {i : Int}
    (h : seedFor i seed s = .error err t) :
    (∃ type, seed = some (.other type) ∧ err = .notAnExpr type) ∨
      (∃ e, seed = some (.expr e) ∧ e.arena ≠ k ∧ err = .foreignContext) ∨
      (∃ j, (j = i ∨ seed = some (.expr ⟨k, j⟩)) ∧ s.arena.at? j = none ∧ err = .absent j) ∨
      ∃ g m n, seed = some (.expr ⟨k, g⟩) ∧ s.arena.at? g = some m ∧ s.arena.at? i = some n ∧
        m.shape ≠ n.shape ∧ err = .shapeMismatch .seed m.shape n.shape := by
  simp only [seedFor] at h
  cases seed with
  | none =>
    dsimp only at h
    cases hi : s.arena.at? i with
    | none =>
      rw [bind_of_error (nodeAt_error hi)] at h
      cases h
      exact Or.inr (Or.inr (Or.inl ⟨i, Or.inl rfl, hi, rfl⟩))
    | some n =>
      rw [bind_of_ok (nodeAt_ok hi)] at h
      rw [bind_of_ok (building_of_ok (param_run s.arena n.shape (some "grad")))] at h
      cases h
  | some o =>
    dsimp only at h
    rcases bind_bound hk o with ⟨g, rfl, hbind⟩ | ⟨-, err', hbind⟩
    case inr =>
      rw [bind_of_error hbind] at h
      cases h
      rcases bind_objects hk hbind with ⟨type, rfl, rfl⟩ | ⟨e, rfl, hne, rfl⟩
      · exact Or.inl ⟨type, rfl, rfl⟩
      · exact Or.inr (Or.inl ⟨e, rfl, hne, rfl⟩)
    rw [bind_of_ok hbind] at h
    cases hg : s.arena.at? g with
    | none =>
      rw [bind_of_error (nodeAt_error hg)] at h
      cases h
      exact Or.inr (Or.inr (Or.inl ⟨g, Or.inr rfl, hg, rfl⟩))
    | some m =>
      rw [bind_of_ok (nodeAt_ok hg)] at h
      cases hi : s.arena.at? i with
      | none =>
        rw [bind_of_error (nodeAt_error hi)] at h
        cases h
        exact Or.inr (Or.inr (Or.inl ⟨i, Or.inl rfl, hi, rfl⟩))
      | some n =>
        rw [bind_of_ok (nodeAt_ok hi)] at h
        by_cases hshape : m.shape = n.shape
        · rw [if_neg (not_not_intro hshape)] at h
          cases h
        · rw [if_pos hshape] at h
          cases h
          exact Or.inr (Or.inr (Or.inr ⟨g, m, n, rfl, hg, rfl, hshape, rfl⟩))

/-- What is wrong with what is asked for. -/
theorem collect_error (hk : s.context.arena = some k) {targets : Std.HashSet Int}
    (h : collect targets o s = .error err t) :
    (∃ type, o = .other type ∧ err = .notAnExpr type) ∨
      (∃ e, o = .expr e ∧ e.arena ≠ k ∧ err = .foreignContext) ∨
      (∃ p, o = .expr ⟨k, p⟩ ∧ s.arena.at? p = none ∧ err = .absent p) ∨
      ∃ p m, o = .expr ⟨k, p⟩ ∧ s.arena.at? p = some m ∧ m.kind ≠ .param ∧
        err = .kindMismatch m.kind .param := by
  simp only [collect] at h
  rcases bind_bound hk o with ⟨p, rfl, hbind⟩ | ⟨-, err', hbind⟩
  case inr =>
    rw [bind_of_error hbind] at h
    cases h
    rcases bind_objects hk hbind with ⟨type, rfl, rfl⟩ | ⟨e, rfl, hne, rfl⟩
    · exact Or.inl ⟨type, rfl, rfl⟩
    · exact Or.inr (Or.inl ⟨e, rfl, hne, rfl⟩)
  rw [bind_of_ok hbind] at h
  cases hp : s.arena.at? p with
  | none =>
    have hexpect : expect .param p s = .error (.absent p) s := by
      simp only [expect, Arena.expect, hp]
    rw [bind_of_error hexpect] at h
    cases h
    exact Or.inr (Or.inr (Or.inl ⟨p, rfl, hp, rfl⟩))
  | some m =>
    by_cases hkind : m.kind = .param
    · have hexpect : expect .param p s = .ok () s := by
        simp only [expect, Arena.expect, hp, if_pos hkind]
      rw [bind_of_ok hexpect] at h
      cases h
    · have hexpect : expect .param p s = .error (.kindMismatch m.kind .param) s := by
        simp only [expect, Arena.expect, hp, if_neg hkind]
      rw [bind_of_error hexpect] at h
      cases h
      exact Or.inr (Or.inr (Or.inr ⟨p, m, rfl, hp, hkind, rfl⟩))

/-- Collecting fails at something that cannot be asked for. -/
theorem exists_of_collect_error (hk : s.context.arena = some k) {ps : List Operand}
    {init : Std.HashSet Int} (h : ps.foldlM collect init s = .error err t) :
    ∃ o ∈ ps, ∃ targets u, collect targets o s = .error err u := by
  induction ps generalizing init with
  | nil => cases h
  | cons o ps ih =>
    rw [List.foldlM_cons] at h
    rcases collect_cases hk init o with ⟨p, -, -, hstep⟩ | ⟨-, err', u, hstep⟩
    · rw [bind_of_ok hstep] at h
      obtain ⟨o', ho', hfail⟩ := ih h
      exact ⟨o', List.mem_cons_of_mem o ho', hfail⟩
    · rw [bind_of_error hstep] at h
      cases h
      exact ⟨o, List.mem_cons_self .., init, _, hstep⟩

theorem exists_of_targets?_error (hk : s.context.arena = some k)
    (h : targets? wrt s = .error err t) :
    ∃ o ∈ wrt.getD [], ∃ targets u, collect targets o s = .error err u := by
  cases wrt with
  | none => cases h
  | some ps =>
    simp only [targets?] at h
    cases hps : targetsOf ps s with
    | ok ts u =>
      rw [map_of_ok hps] at h
      cases h
    | error e u =>
      cases (bind_of_error (f := fun ts => pure (some ts)) hps).symm.trans h
      exact exists_of_collect_error hk hps

/-! ### All checks -/

section Pass

variable {k : ArenaId} {y : Int} (hadmits : s.context.Admits output ⟨k, y⟩)

include hadmits

/-- A seed that is refused is an objection, and so is an output without a node. -/
theorem objection_of_seedFor_error
    (h : seedFor y seed ⟨s.arena, { s.context with arena := some k }⟩ = .error err t) :
    Objection s output seed wrt err := by
  have hmem : ∀ {o}, seed = some o → o ∈ output :: seed.toList := fun ho =>
    List.mem_cons_of_mem _ (by simp [ho])
  have hargument : ∀ {o}, seed = some o → o ∈ arguments output seed wrt := fun ho =>
    List.mem_cons_of_mem _ (List.mem_append_left _ (by simp [ho]))
  rcases seedFor_error (s := ⟨s.arena, { s.context with arena := some k }⟩) rfl h with
    ⟨type, hseed, rfl⟩ | ⟨g, hseed, hne, rfl⟩ | ⟨j, rfl | hseed, hj, rfl⟩ |
      ⟨g, m, n, hseed, hm, hn, hne, rfl⟩
  · exact .notAnExpr (hargument hseed)
  · exact .foreign hadmits.home? (hargument hseed) hne
  · exact .absent hadmits.home? (hadmits.1 ▸ List.mem_cons_self ..) hj
  · exact .absent hadmits.home? (hmem hseed) hj
  · exact .seedShape hadmits.home? hadmits.1 hseed hn hm hne

/-- What cannot be asked for is an objection. -/
theorem objection_of_targets?_error {n : Node} (hn : s.arena.at? y = some n)
    (h : targets? wrt ⟨seeded s.arena n.shape seed, { s.context with arena := some k }⟩ =
      .error err t) : Objection s output seed wrt err := by
  obtain ⟨o, ho, targets, u, hcollect⟩ := exists_of_targets?_error rfl h
  have hmem : o ∈ arguments output seed wrt := List.mem_cons_of_mem _ (List.mem_append_right _ ho)
  rcases collect_error
      (s := ⟨seeded s.arena n.shape seed, { s.context with arena := some k }⟩) rfl hcollect with
    ⟨type, rfl, rfl⟩ | ⟨e', rfl, hne, rfl⟩ | ⟨p, rfl, hp, rfl⟩ | ⟨p, m, rfl, hm, hne, rfl⟩
  · exact .notAnExpr hmem
  · exact .foreign hadmits.home? hmem hne
  · exact .absentTarget hadmits.home? hadmits.1 hn ho hp
  · exact .notParam hadmits.home? hadmits.1 hn ho hm hne

end Pass

/-- A pass that is not accepted is refused for a reason. -/
theorem objection_of_error (hno : ∀ e n, ¬Accepts s output seed wrt e n)
    (h : backward output seed wrt s = .error err t) : Objection s output seed wrt err := by
  by_cases hgrad : s.context.requiresGrad = true
  case neg =>
    have hdisabled : s.context.requiresGrad = false := by simpa using hgrad
    cases (backward_disabled output seed wrt hdisabled).symm.trans h
    exact .disabled hdisabled
  rw [backward_eq output seed wrt hgrad] at h
  rcases bind_cases output s with ⟨e, hadmits, hbind⟩ | ⟨-, err', hbind⟩
  case inr =>
    rw [bind_of_error hbind] at h
    cases h
    rcases bind_error hbind with ⟨type, rfl, rfl⟩ | ⟨e, k, rfl, hk, hne, rfl⟩
    · exact .notAnExpr (List.mem_cons_self ..)
    · refine .foreign (k := k) (e := e) ?_ (List.mem_cons_self ..) hne
      simp only [Context.home?, hk, Option.some_or]
  obtain ⟨k, y⟩ := e
  rw [bind_of_ok hbind] at h
  simp only [pass] at h
  cases hseed : seedFor y seed ⟨s.arena, { s.context with arena := some k }⟩ with
  | error err' u =>
    rw [bind_of_error hseed] at h
    cases h
    exact objection_of_seedFor_error hadmits hseed
  | ok g u =>
    rw [bind_of_ok hseed] at h
    cases hn : s.arena.at? y with
    | none =>
      obtain ⟨err', t', herror⟩ :=
        seedFor_absent (s := ⟨s.arena, { s.context with arena := some k }⟩) rfl hn seed
      cases hseed.symm.trans herror
    | some n =>
      rcases seedFor_cases (s := ⟨s.arena, { s.context with arena := some k }⟩) rfl hn seed with
        ⟨hfits, hok⟩ | ⟨-, err', t', herror⟩
      case inr => cases hseed.symm.trans herror
      cases hseed.symm.trans hok
      rcases targets?_cases
          (s := ⟨seeded s.arena n.shape seed, { s.context with arena := some k }⟩) rfl wrt with
        ⟨hall, -⟩ | ⟨-, err', u, htargets⟩
      · exact absurd ⟨hgrad, hadmits, hn, hfits, hall⟩ (hno ⟨k, y⟩ n)
      · rw [bind_of_error htargets] at h
        cases h
        exact objection_of_targets?_error hadmits hn htargets

/-! ### Accepted arguments -/

namespace Accepts

variable {e : Expr} {n m : Node} (h : Accepts s output seed wrt e n)

include h

theorem isTarget (ho : o ∈ wrt.getD []) :
    IsTarget (seeded s.arena n.shape seed) e.arena o := by
  cases wrt with
  | none => cases ho
  | some ps => exact h.targets ps rfl o ho

/-- All arguments are expressions of the arena of the output. -/
theorem eq_expr_of_mem (ho : o ∈ arguments output seed wrt) : ∃ i, o = .expr ⟨e.arena, i⟩ := by
  rcases List.mem_cons.mp ho with rfl | ho
  · exact ⟨e.index, h.admits.1⟩
  · rcases List.mem_append.mp ho with ho | ho
    · obtain ⟨g, m, rfl, -⟩ := h.fits o (by simpa using ho)
      exact ⟨g, rfl⟩
    · obtain ⟨p, m, rfl, -⟩ := h.isTarget ho
      exact ⟨p, rfl⟩

theorem node_unique {i : Int} (houtput : output = .expr ⟨k, i⟩) (hm : s.arena.at? i = some m) :
    m = n := by
  have hi := h.node
  rw [← Operand.expr.inj (houtput.symm.trans h.admits.1)] at hi
  exact Option.some.inj (hm.symm.trans hi)

/-- There is nothing to object to in what is accepted. -/
theorem no_objection : ¬Objection s output seed wrt err := by
  intro hobjection
  cases hobjection with
  | disabled hdisabled =>
    rw [h.enabled] at hdisabled
    cases hdisabled
  | notAnExpr hother =>
    obtain ⟨i, hi⟩ := h.eq_expr_of_mem hother
    cases hi
  | foreign home ho hne =>
    obtain ⟨i, hi⟩ := h.eq_expr_of_mem ho
    cases hi
    exact hne (Option.some.inj (h.admits.home?.symm.trans home))
  | absent home ho hnone =>
    rcases List.mem_cons.mp ho with houtput | ho
    · have hi := h.node
      rw [← Operand.expr.inj (houtput.trans h.admits.1)] at hi
      cases hnone.symm.trans hi
    · obtain ⟨g, m, hg, hm, -⟩ := h.fits _ (by simpa using ho)
      cases hg
      cases hnone.symm.trans hm
  | seedShape home houtput hseed hn hm hne =>
    obtain ⟨g, m, hg, hm', hshape⟩ := h.fits _ hseed
    cases hg
    cases hm.symm.trans hm'
    cases h.node_unique houtput hn
    exact hne hshape
  | absentTarget home houtput hn ho hnone =>
    obtain ⟨p, m, hp, hm, -⟩ := h.isTarget ho
    cases hp
    cases h.node_unique houtput hn
    cases hnone.symm.trans hm
  | notParam home houtput hn ho hm hne =>
    obtain ⟨p, m, hp, hm', hkind⟩ := h.isTarget ho
    cases hp
    cases h.node_unique houtput hn
    cases hm.symm.trans hm'
    exact hne hkind

end Accepts

end Errors

end Differentiation

end TensorGraph
