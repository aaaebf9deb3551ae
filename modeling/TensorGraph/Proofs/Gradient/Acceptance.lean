import TensorGraph.Proofs.Gradient.Growth
import TensorGraph.Proofs.Gradient.Liveness

/-!
# What a pass accepts

The arguments of a pass are checked before it starts. Which ones are accepted is said exactly; for
others the gradients of the context stay as they are.
-/

namespace TensorGraph.Differentiation

/-- The arena in which a pass starts: a default seed is appended. -/
def seeded (a : Arena) (sh : Shape) : Option Operand → Arena
  | none => a.push ⟨.leaf .param, sh, some "grad"⟩
  | some _ => a

/-- The index of the seed. -/
def seedIndex (a : Arena) : Option Operand → Int
  | none => a.size
  | some o => (o.expr?.map Expr.index).getD 0

/-- A seed given is a node of the arena of the output and has its shape. -/
def SeedFits (a : Arena) (k : ArenaId) (sh : Shape) (seed : Option Operand) : Prop :=
  ∀ o, seed = some o → ∃ (g : Int) (m : Node), o = .expr ⟨k, g⟩ ∧ a.at? g = some m ∧ m.shape = sh

/-- What can be asked for is a parameter of the arena of the output. -/
def IsTarget (a : Arena) (k : ArenaId) (o : Operand) : Prop :=
  ∃ (p : Int) (m : Node), o = .expr ⟨k, p⟩ ∧ a.at? p = some m ∧ m.kind = .param

/-- The nodes asked for; all are when nothing is said. -/
def AskedFor (wrt : Option (List Operand)) (p : Nat) : Prop :=
  ∀ ps, wrt = some ps → ∃ e : Expr, Operand.expr e ∈ ps ∧ e.index = p

@[simp] theorem askedFor_none (p : Nat) : AskedFor none p :=
  nofun

/-- The arguments of a pass are accepted, for an output that is node `n`. -/
structure Accepts (s : Differentiation) (output : Operand) (seed : Option Operand)
    (wrt : Option (List Operand)) (e : Expr) (n : Node) : Prop where
  enabled : s.context.requiresGrad = true
  admits : s.context.Admits output e
  node : s.arena.at? e.index = some n
  fits : SeedFits s.arena e.arena n.shape seed
  targets : ∀ ps, wrt = some ps → ∀ o ∈ ps, IsTarget (seeded s.arena n.shape seed) e.arena o

variable {s : Differentiation} {k : ArenaId}

/-- A context that tracks gradients accepts any node that it admits, when nothing else is said. -/
theorem accepts_default {output : Operand} {e : Expr} {n : Node}
    (henabled : s.context.requiresGrad = true) (hadmits : s.context.Admits output e)
    (hnode : s.arena.at? e.index = some n) : Accepts s output none none e n := by
  refine ⟨henabled, hadmits, hnode, fun o ho => ?_, fun ps hps => ?_⟩
  · cases ho
  · cases hps

/-! ### Single checks -/

theorem bind_cases (o : Operand) (s : Differentiation) :
    (∃ e, s.context.Admits o e ∧
        bind o s = .ok e ⟨s.arena, { s.context with arena := some e.arena }⟩) ∨
      ((∀ e, ¬s.context.Admits o e) ∧ ∃ err, bind o s = .error err s) := by
  obtain ⟨a, c⟩ := s
  simp only [bind, inContext]
  rcases Context.bind_cases o c with ⟨e, hadmits, h⟩ | ⟨hno, err, h⟩
  · exact Or.inl ⟨e, hadmits, by rw [h]⟩
  · exact Or.inr ⟨hno, err, by rw [h]⟩

/-- A bound context admits the expressions of its arena. -/
theorem bind_bound (hk : s.context.arena = some k) (o : Operand) :
    (∃ i, o = .expr ⟨k, i⟩ ∧ bind o s = .ok ⟨k, i⟩ s) ∨
      ((∀ i, o ≠ .expr ⟨k, i⟩) ∧ ∃ err, bind o s = .error err s) := by
  rcases bind_cases o s with ⟨e, ⟨ho, hbound⟩, h⟩ | ⟨hno, h⟩
  · have he := hbound k hk
    subst he
    refine Or.inl ⟨e.index, ho, ?_⟩
    rw [h, ← hk]
  · refine Or.inr ⟨fun i ho => hno ⟨k, i⟩ ⟨ho, fun a ha => ?_⟩, h⟩
    rw [hk] at ha
    exact (Option.some.inj ha).symm

theorem building_of_ok {α : Type} {x : Build α} {v : α} {b : Arena} (h : x s.arena = .ok v b) :
    building x s = .ok v ⟨b, s.context⟩ := by
  obtain ⟨a, c⟩ := s
  simp only [building]
  rw [h]

theorem building_of_error {α : Type} {x : Build α} {err : Error} {b : Arena}
    (h : x s.arena = .error err b) : building x s = .error err ⟨b, s.context⟩ := by
  obtain ⟨a, c⟩ := s
  simp only [building]
  rw [h]

/-- Looking a node up changes nothing. -/
theorem nodeAt_ok {i : Int} {n : Node} (h : s.arena.at? i = some n) :
    building (Arena.nodeAt i) s = .ok n s := by
  refine building_of_ok ?_
  rw [Arena.nodeAt, h]

theorem nodeAt_error {i : Int} (h : s.arena.at? i = none) :
    building (Arena.nodeAt i) s = .error (.absent i) s := by
  refine building_of_error ?_
  rw [Arena.nodeAt, h]

theorem param_run (a : Arena) (sh : Shape) (name : Option String) :
    Arena.param (.shape sh) name a = .ok a.size (a.push ⟨.leaf .param, sh, name⟩) := by
  have hnew := Arena.newNode_eq_ok (a := a) (.leaf .param) (by simp [Form.operands]) sh name
  simp only [Form.kind, Form.operands, List.map_nil] at hnew
  simp only [Arena.param, Arena.add, hnew, Arena.append]

/-! ### The seed -/

/-- Where the output is absent there is no seed. -/
theorem seedFor_absent (hk : s.context.arena = some k) {i : Int} (hi : s.arena.at? i = none)
    (seed : Option Operand) : ∃ err t, seedFor i seed s = .error err t := by
  simp only [seedFor]
  cases seed with
  | none => exact ⟨_, _, bind_of_error (nodeAt_error hi)⟩
  | some o =>
    rcases bind_bound hk o with ⟨g, -, hbind⟩ | ⟨-, err, hbind⟩
    · cases hg : s.arena.at? g with
      | none => exact ⟨_, _, (bind_of_ok hbind).trans (bind_of_error (nodeAt_error hg))⟩
      | some m =>
        refine ⟨.absent i, s, (bind_of_ok hbind).trans ((bind_of_ok (nodeAt_ok hg)).trans ?_)⟩
        exact bind_of_error (nodeAt_error hi)
    · exact ⟨_, _, bind_of_error hbind⟩

/-- The seed of a pass from a node of the arena that the context is bound to. -/
theorem seedFor_cases (hk : s.context.arena = some k) {i : Int} {n : Node}
    (hn : s.arena.at? i = some n) (seed : Option Operand) :
    (SeedFits s.arena k n.shape seed ∧
        seedFor i seed s = .ok (seedIndex s.arena seed) ⟨seeded s.arena n.shape seed, s.context⟩) ∨
      (¬SeedFits s.arena k n.shape seed ∧ ∃ err t, seedFor i seed s = .error err t) := by
  simp only [seedFor]
  cases seed with
  | none =>
    have hfits : SeedFits s.arena k n.shape none := by
      intro o ho
      cases ho
    refine Or.inl ⟨hfits, (bind_of_ok (nodeAt_ok hn)).trans ?_⟩
    exact bind_of_ok (building_of_ok (param_run s.arena n.shape (some "grad")))
  | some o =>
    rcases bind_bound hk o with ⟨g, rfl, hbind⟩ | ⟨hno, err, hbind⟩
    · cases hg : s.arena.at? g with
      | none =>
        refine Or.inr ⟨fun hfits => ?_, _, _,
          (bind_of_ok hbind).trans (bind_of_error (nodeAt_error hg))⟩
        obtain ⟨g', m, ho, hm, -⟩ := hfits _ rfl
        cases ho
        rw [hg] at hm
        cases hm
      | some m =>
        by_cases hshape : m.shape = n.shape
        · refine Or.inl ⟨?_, (bind_of_ok hbind).trans ((bind_of_ok (nodeAt_ok hg)).trans
            ((bind_of_ok (nodeAt_ok hn)).trans ?_))⟩
          · intro o ho
            cases ho
            exact ⟨g, m, rfl, hg, hshape⟩
          · rw [if_neg (not_not_intro hshape)]
            rfl
        · refine Or.inr ⟨fun hfits => ?_, .shapeMismatch .seed m.shape n.shape, s,
            (bind_of_ok hbind).trans ((bind_of_ok (nodeAt_ok hg)).trans
              ((bind_of_ok (nodeAt_ok hn)).trans ?_))⟩
          · obtain ⟨g', m', ho, hm, hm'⟩ := hfits _ rfl
            cases ho
            rw [hg] at hm
            cases hm
            exact hshape hm'
          · rw [if_pos hshape]
            rfl
    · refine Or.inr ⟨fun hfits => ?_, _, _, bind_of_error hbind⟩
      obtain ⟨g, m, ho, -, -⟩ := hfits o rfl
      exact hno g ho

/-! ### The parameters asked for -/

/-- Collects one parameter asked for. -/
def collect (targets : Std.HashSet Int) (o : Operand) : Differentiate (Std.HashSet Int) := do
  let e ← bind o
  expect .param e.index
  return targets.insert e.index

/-- A parameter of the arena that the context is bound to is collected. -/
theorem collect_cases (hk : s.context.arena = some k) (targets : Std.HashSet Int) (o : Operand) :
    (∃ p, o = .expr ⟨k, p⟩ ∧ IsTarget s.arena k o ∧
        collect targets o s = .ok (targets.insert p) s) ∨
      (¬IsTarget s.arena k o ∧ ∃ err t, collect targets o s = .error err t) := by
  rcases bind_bound hk o with ⟨p, rfl, hbind⟩ | ⟨hno, err, hbind⟩
  · cases hp : s.arena.at? p with
    | none =>
      have hexpect : expect .param p s = .error (.absent p) s := by
        simp only [expect, Arena.expect, hp]
      refine Or.inr ⟨?_, _, _, (bind_of_ok hbind).trans (bind_of_error hexpect)⟩
      rintro ⟨q, m, ho, hm, -⟩
      cases ho
      rw [hp] at hm
      cases hm
    | some m =>
      by_cases hkind : m.kind = .param
      · have hexpect : expect .param p s = .ok () s := by
          simp only [expect, Arena.expect, hp, if_pos hkind]
        refine Or.inl ⟨p, rfl, ⟨p, m, rfl, hp, hkind⟩, ?_⟩
        exact (bind_of_ok hbind).trans (bind_of_ok hexpect)
      · have hexpect : expect .param p s = .error (.kindMismatch m.kind .param) s := by
          simp only [expect, Arena.expect, hp, if_neg hkind]
        refine Or.inr ⟨?_, _, _, (bind_of_ok hbind).trans (bind_of_error hexpect)⟩
        rintro ⟨q, m', ho, hm, hm'⟩
        cases ho
        rw [hp] at hm
        cases hm
        exact hkind hm'
  · refine Or.inr ⟨?_, _, _, bind_of_error hbind⟩
    rintro ⟨p, m, ho, -⟩
    exact hno p ho

/-- Collecting goes on from any set. -/
theorem foldlM_collect_cases (hk : s.context.arena = some k) (ps : List Operand)
    (init : Std.HashSet Int) :
    ((∀ o ∈ ps, IsTarget s.arena k o) ∧ ∃ ts : Std.HashSet Int,
        ps.foldlM collect init s = .ok ts s ∧
        ∀ p, p ∈ ts ↔ p ∈ init ∨ ∃ e : Expr, Operand.expr e ∈ ps ∧ e.index = p) ∨
      ((¬∀ o ∈ ps, IsTarget s.arena k o) ∧ ∃ err t, ps.foldlM collect init s = .error err t) := by
  induction ps generalizing init with
  | nil => exact Or.inl ⟨by simp, init, rfl, by simp⟩
  | cons o ps ih =>
    rw [List.foldlM_cons]
    rcases collect_cases hk init o with ⟨p, rfl, htarget, hstep⟩ | ⟨hno, err, t, hstep⟩
    · rcases ih (init.insert p) with ⟨hps, ts, hok, hts⟩ | ⟨hps, err, t, herror⟩
      · refine Or.inl ⟨?_, ts, (bind_of_ok hstep).trans hok, fun q => ?_⟩
        · intro o ho
          rcases List.mem_cons.mp ho with rfl | ho
          · exact htarget
          · exact hps o ho
        · rw [hts, Std.HashSet.mem_insert, beq_iff_eq]
          constructor
          · rintro ((rfl | hq) | ⟨e, he, hq⟩)
            · exact Or.inr ⟨⟨k, p⟩, List.mem_cons_self .., rfl⟩
            · exact Or.inl hq
            · exact Or.inr ⟨e, List.mem_cons_of_mem _ he, hq⟩
          · rintro (hq | ⟨e, he, hq⟩)
            · exact Or.inl (Or.inr hq)
            · rcases List.mem_cons.mp he with he | he
              · cases he
                exact Or.inl (Or.inl hq)
              · exact Or.inr ⟨e, he, hq⟩
      · refine Or.inr ⟨fun hall => hps fun o ho => ?_, err, t, (bind_of_ok hstep).trans herror⟩
        exact hall o (List.mem_cons_of_mem _ ho)
    · refine Or.inr ⟨fun hall => hno (hall o (List.mem_cons_self ..)), err, t, ?_⟩
      exact bind_of_error hstep

/-- The set of parameters in which a pass looks. -/
def targets? (wrt : Option (List Operand)) : Differentiate (Option (Std.HashSet Int)) :=
  match wrt with
  | none => pure none
  | some ps => some <$> targetsOf ps

/-- The parameters asked for are collected when all are there. -/
theorem targets?_cases (hk : s.context.arena = some k) (wrt : Option (List Operand)) :
    ((∀ ps, wrt = some ps → ∀ o ∈ ps, IsTarget s.arena k o) ∧
        ∃ targets, targets? wrt s = .ok targets s ∧
          ∀ p, AskedFor wrt p ↔ Arena.AskedIn targets p) ∨
      ((¬∀ ps, wrt = some ps → ∀ o ∈ ps, IsTarget s.arena k o) ∧
        ∃ err t, targets? wrt s = .error err t) := by
  cases wrt with
  | none =>
    refine Or.inl ⟨?_, none, rfl, fun p => ?_⟩
    · intro ps hps
      cases hps
    · simp [Arena.AskedIn]
  | some ps =>
    rcases foldlM_collect_cases hk ps ∅ with ⟨hps, ts, hok, hts⟩ | ⟨hps, err, t, herror⟩
    · refine Or.inl ⟨?_, some ts, bind_of_ok hok, fun p => ?_⟩
      · intro qs hqs
        cases hqs
        exact hps
      · simp [AskedFor, Arena.AskedIn, hts]
    · exact Or.inr ⟨fun hall => hps (hall ps rfl), err, t, bind_of_error herror⟩

theorem targets?_keeps (wrt : Option (List Operand)) : Keeps Prepares (targets? wrt) := by
  cases wrt with
  | none => exact Keeps.pure none
  | some ps => exact Keeps.map _ (targetsOf_keeps ps)

/-! ### All checks -/

/-- A pass from a node, once the context is bound. -/
def pass (output : Int) (seed : Option Operand) (wrt : Option (List Operand)) :
    Differentiate Outcome := do
  let g ← seedFor output seed
  let targets ← targets? wrt
  run output g targets

/-- A pass from a node of the arena that the context is bound to is run, or it fails and the
gradients stay. -/
theorem pass_cases (hk : s.context.arena = some k) (i : Int) (seed : Option Operand)
    (wrt : Option (List Operand)) :
    (∃ n targets, s.arena.at? i = some n ∧ SeedFits s.arena k n.shape seed ∧
        (∀ ps, wrt = some ps → ∀ o ∈ ps, IsTarget (seeded s.arena n.shape seed) k o) ∧
        (∀ p, AskedFor wrt p ↔ Arena.AskedIn targets p) ∧
        pass i seed wrt s = run i (seedIndex s.arena seed) targets
          ⟨seeded s.arena n.shape seed, s.context⟩) ∨
      ((∀ n, s.arena.at? i = some n → SeedFits s.arena k n.shape seed →
          ¬∀ ps, wrt = some ps → ∀ o ∈ ps, IsTarget (seeded s.arena n.shape seed) k o) ∧
        ∃ err t, pass i seed wrt s = .error err t ∧ s.context.KeepsGradients t.context) := by
  have hseed := seedFor_keeps i seed
  simp only [pass]
  cases hi : s.arena.at? i with
  | none =>
    obtain ⟨err, t, herror⟩ := seedFor_absent hk hi seed
    refine Or.inr ⟨fun n hn => ?_, err, t, bind_of_error herror, ?_⟩
    · cases hn
    · exact (hseed.of_error herror).2
  | some n =>
    rcases seedFor_cases hk hi seed with ⟨hfits, hok⟩ | ⟨hno, err, t, herror⟩
    · have htargets := targets?_keeps wrt
      rcases targets?_cases (s := ⟨seeded s.arena n.shape seed, s.context⟩) hk wrt with
        ⟨hall, targets, hts, hasked⟩ | ⟨hno, err, t, herror⟩
      · refine Or.inl ⟨n, targets, rfl, hfits, hall, hasked, ?_⟩
        exact (bind_of_ok hok).trans (bind_of_ok hts)
      · refine Or.inr ⟨fun m hm _ => ?_, err, t, (bind_of_ok hok).trans (bind_of_error herror), ?_⟩
        · cases hm
          exact hno
        · exact (htargets.of_error herror).2
    · refine Or.inr ⟨fun m hm hfits => ?_, err, t, bind_of_error herror, ?_⟩
      · cases hm
        exact absurd hfits hno
      · exact (hseed.of_error herror).2

theorem backward_eq (output : Operand) (seed : Option Operand) (wrt : Option (List Operand))
    (h : s.context.requiresGrad = true) :
    backward output seed wrt s =
      (do
        let e ← bind output
        pass e.index seed wrt : Differentiate Outcome) s := by
  simp only [backward]
  refine (bind_of_ok (x := MonadState.get) (s := s) (t := s) rfl).trans ?_
  simp only [h, Bool.not_true, Bool.false_eq_true, if_false]
  cases wrt with
  | none => rfl
  | some ps => rfl

theorem backward_disabled (output : Operand) (seed : Option Operand) (wrt : Option (List Operand))
    (h : s.context.requiresGrad = false) :
    backward output seed wrt s = .error .gradientDisabled s := by
  simp only [backward]
  refine (bind_of_ok (x := MonadState.get) (s := s) (t := s) rfl).trans ?_
  simp only [h]
  rfl

/-- A context that may ask about an expression is bound to its arena by a pass from there, also by
one that is refused. -/
theorem backward_bound {e : Expr} (henabled : s.context.requiresGrad = true)
    (hadmits : s.context.Admits (.expr e) e) (seed : Option Operand)
    (wrt : Option (List Operand)) :
    (stateAfter (backward (.expr e) seed wrt s)).context.arena = some e.arena := by
  have hrebinds : ∀ (c : Context) grads, c.Rebinds { c with grads } := fun c grads =>
    ⟨rfl, fun _ h => h⟩
  have hpass : Keeps (ContextBy Context.Rebinds) (pass e.index seed wrt) := by
    refine Keeps.bind (seedFor_context Context.bind_keeps e.index seed) fun g => ?_
    refine Keeps.bind ?_ fun targets => run_context hrebinds e.index g targets
    cases wrt with
    | none => exact Keeps.pure none
    | some ps => exact Keeps.map _ (targetsOf_context Context.bind_keeps ps)
  rw [backward_eq _ seed wrt henabled]
  rcases bind_cases (.expr e) s with ⟨e', hadmits', hbind⟩ | ⟨hno, -⟩
  · obtain rfl := Operand.expr.inj hadmits'.1
    rw [bind_of_ok hbind]
    exact (hpass _).2 e.arena rfl
  · exact absurd hadmits (hno e)

/-- A pass is run when its arguments are accepted; otherwise it fails and the gradients stay. -/
theorem backward_cases (output : Operand) (seed : Option Operand) (wrt : Option (List Operand))
    (s : Differentiation) :
    (∃ e n targets, Accepts s output seed wrt e n ∧
        (∀ p, AskedFor wrt p ↔ Arena.AskedIn targets p) ∧
        backward output seed wrt s = run e.index (seedIndex s.arena seed) targets
          ⟨seeded s.arena n.shape seed, { s.context with arena := some e.arena }⟩) ∨
      ((∀ e n, ¬Accepts s output seed wrt e n) ∧ ∃ err t, backward output seed wrt s =
        .error err t ∧ s.context.KeepsGradients t.context) := by
  by_cases hgrad : s.context.requiresGrad = true
  · rw [backward_eq output seed wrt hgrad]
    rcases bind_cases output s with ⟨e, hadmits, hbind⟩ | ⟨hno, err, hbind⟩
    · have hbound := (bind_keeps output).of_ok hbind
      rw [bind_of_ok hbind]
      rcases pass_cases (s := ⟨s.arena, { s.context with arena := some e.arena }⟩) rfl e.index seed
        wrt with ⟨n, targets, hn, hfits, hall, hasked, hrun⟩ | ⟨hno, err, t, herror, hkeeps⟩
      · exact Or.inl ⟨e, n, targets, ⟨hgrad, hadmits, hn, hfits, hall⟩, hasked, hrun⟩
      · refine Or.inr ⟨fun e' n h => ?_, err, t, herror, IsTrans.trans _ _ _ hbound.2 hkeeps⟩
        have he := Operand.expr.inj (hadmits.1.symm.trans h.admits.1)
        subst he
        exact hno n h.node h.fits h.targets
    · refine Or.inr ⟨fun e n h => hno e h.admits, err, s, bind_of_error hbind, ?_⟩
      exact Std.Refl.refl _
  · refine Or.inr ⟨fun e n h => hgrad h.enabled, .gradientDisabled, s, ?_, Std.Refl.refl _⟩
    exact backward_disabled output seed wrt (by simpa using hgrad)

end TensorGraph.Differentiation
