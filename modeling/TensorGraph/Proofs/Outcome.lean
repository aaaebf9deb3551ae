import Mathlib.Order.Defs.Unbundled

/-!
# What actions keep

An action leaves a state whether it succeeds or fails. It keeps a relation that holds of every state
and the one after; since actions are put together from smaller ones, it is enough that the small
ones keep it.
-/

namespace TensorGraph

/-- The state that an action leaves, whatever its outcome. -/
def stateAfter {ε σ α : Type} : EStateM.Result ε σ α → σ
  | .ok _ s => s
  | .error _ s => s

/-- The state after an action is related to the state before, whatever the outcome. -/
def Keeps {ε σ α : Type} (R : σ → σ → Prop) (x : EStateM ε σ α) : Prop :=
  ∀ s, R s (stateAfter (x s))

section Runs

variable {ε σ α β : Type} {x : EStateM ε σ α} {f : α → EStateM ε σ β} {s t : σ}

theorem bind_of_ok {u : α} (h : x s = .ok u t) : (x >>= f) s = f u t := by
  change EStateM.bind x f s = f u t
  simp only [EStateM.bind]
  rw [h]

theorem bind_of_error {e : ε} (h : x s = .error e t) : (x >>= f) s = .error e t := by
  change EStateM.bind x f s = .error e t
  simp only [EStateM.bind]
  rw [h]

theorem except_bind_eq_ok {x : Except ε α} {f : α → Except ε β} {v : β} :
    x >>= f = .ok v ↔ ∃ u, x = .ok u ∧ f u = .ok v := by
  constructor
  · intro h
    cases x with
    | error e => cases h
    | ok u => exact ⟨u, rfl, h⟩
  · rintro ⟨u, rfl, h⟩
    exact h

theorem map_of_ok {u : α} (h : x s = .ok u t) (g : α → β) : (g <$> x) s = .ok (g u) t := by
  change EStateM.map g x s = .ok (g u) t
  simp only [EStateM.map]
  rw [h]

theorem exists_of_bind_ok {v : β} (h : (x >>= f) s = .ok v t) :
    ∃ u s', x s = .ok u s' ∧ f u s' = .ok v t := by
  cases hx : x s with
  | error e s' =>
    rw [bind_of_error hx] at h
    cases h
  | ok u s' =>
    rw [bind_of_ok hx] at h
    exact ⟨u, s', rfl, h⟩

theorem stateAfter_discard : stateAfter (Functor.discard x s) = stateAfter (x s) := by
  change stateAfter ((x >>= fun _ => pure ()) s) = stateAfter (x s)
  cases hx : x s with
  | ok u t =>
    rw [bind_of_ok hx]
    rfl
  | error e t =>
    rw [bind_of_error hx]
    rfl

theorem forM_cons_of_ok {g : α → EStateM ε σ Unit} {a : α} {as : List α} {u : Unit}
    (h : g a s = .ok u t) : (a :: as).forM g s = as.forM g t := bind_of_ok h

theorem forM_cons_of_error {g : α → EStateM ε σ Unit} {a : α} {as : List α} {e : ε}
    (h : g a s = .error e t) : (a :: as).forM g s = .error e t := bind_of_error h

end Runs

/-! ### Lists gone through item by item -/

section Lists

variable {ε α β : Type}

theorem exists_mapM {f : α → Option β} {xs : List α} (h : ∀ x ∈ xs, ∃ y, f x = some y) :
    ∃ ys, xs.mapM f = some ys := by
  induction xs with
  | nil => exact ⟨[], rfl⟩
  | cons x xs ih =>
    obtain ⟨y, hy⟩ := h x (List.mem_cons_self ..)
    obtain ⟨ys, hys⟩ := ih fun x' hx' => h x' (List.mem_cons_of_mem x hx')
    exact ⟨y :: ys, by rw [List.mapM_cons, hy, hys]; rfl⟩

/-- Each item gave something, and what was given came from an item. -/
theorem mem_of_mapM_eq_ok {f : α → Except ε β} {xs : List α} {ys : List β}
    (h : xs.mapM f = .ok ys) :
    (∀ x ∈ xs, ∃ y ∈ ys, f x = .ok y) ∧ ∀ y ∈ ys, ∃ x ∈ xs, f x = .ok y := by
  induction xs generalizing ys with
  | nil =>
    cases h
    exact ⟨fun x hx => (by cases hx), fun y hy => (by cases hy)⟩
  | cons x xs ih =>
    rw [List.mapM_cons] at h
    obtain ⟨y, hy, h⟩ := except_bind_eq_ok.mp h
    obtain ⟨ys', hys, h⟩ := except_bind_eq_ok.mp h
    cases h
    obtain ⟨hleft, hright⟩ := ih hys
    refine ⟨fun x' hx' => ?_, fun y' hy' => ?_⟩
    · rcases List.mem_cons.mp hx' with rfl | hx'
      · exact ⟨y, List.mem_cons_self .., hy⟩
      · obtain ⟨z, hz, hf⟩ := hleft x' hx'
        exact ⟨z, List.mem_cons_of_mem y hz, hf⟩
    · rcases List.mem_cons.mp hy' with rfl | hy'
      · exact ⟨x, List.mem_cons_self .., hy⟩
      · obtain ⟨z, hz, hf⟩ := hright y' hy'
        exact ⟨z, List.mem_cons_of_mem x hz, hf⟩

end Lists

/-- Two outcomes agree: results that correspond or the same error, and the states that are left
correspond, too. -/
inductive Agree {ε σ τ α β : Type} (M : α → β → Prop) (R : σ → τ → Prop) :
    EStateM.Result ε σ α → EStateM.Result ε τ β → Prop
  | ok {u : α} {v : β} {s : σ} {t : τ} (result : M u v) (state : R s t) :
    Agree M R (.ok u s) (.ok v t)
  | error (e : ε) {s : σ} {t : τ} (state : R s t) : Agree M R (.error e s) (.error e t)

theorem Agree.bind {ε σ τ α β γ δ : Type} {M : α → β → Prop} {N : γ → δ → Prop} {R : σ → τ → Prop}
    {x : EStateM ε σ α} {y : EStateM ε τ β} {f : α → EStateM ε σ γ} {g : β → EStateM ε τ δ} {s : σ}
    {t : τ} (hxy : Agree M R (x s) (y t))
    (hfg : ∀ u v s' t', M u v → R s' t' → Agree N R (f u s') (g v t')) :
    Agree N R ((x >>= f) s) ((y >>= g) t) := by
  generalize hx : x s = o at hxy
  generalize hy : y t = o' at hxy
  cases hxy with
  | ok huv hst =>
    rw [bind_of_ok hx, bind_of_ok hy]
    exact hfg _ _ _ _ huv hst
  | error e hst =>
    rw [bind_of_error hx, bind_of_error hy]
    exact .error e hst

namespace Keeps

variable {ε σ α β : Type} {R : σ → σ → Prop}

theorem of_ok {x : EStateM ε σ α} (h : Keeps R x) {s t : σ} {v : α} (hx : x s = .ok v t) :
    R s t := by
  have hs := h s
  rw [hx] at hs
  exact hs

theorem of_error {x : EStateM ε σ α} (h : Keeps R x) {s t : σ} {e : ε} (hx : x s = .error e t) :
    R s t := by
  have hs := h s
  rw [hx] at hs
  exact hs

variable [IsPreorder σ R]

theorem pure (v : α) : Keeps R (Pure.pure v : EStateM ε σ α) := fun s => Std.Refl.refl s

theorem throw (e : ε) : Keeps R (MonadExcept.throw e : EStateM ε σ α) := fun s => Std.Refl.refl s

theorem get : Keeps R (MonadState.get : EStateM ε σ σ) := fun s => Std.Refl.refl s

theorem bind {x : EStateM ε σ α} {f : α → EStateM ε σ β} (hx : Keeps R x)
    (hf : ∀ v, Keeps R (f v)) : Keeps R (x >>= f) := by
  intro s
  have hs := hx s
  cases hr : x s with
  | error e t =>
    rw [hr] at hs
    rw [bind_of_error hr]
    exact hs
  | ok v t =>
    rw [hr] at hs
    rw [bind_of_ok hr]
    exact IsTrans.trans _ _ _ hs (hf v t)

theorem map {x : EStateM ε σ α} (f : α → β) (hx : Keeps R x) : Keeps R (f <$> x) :=
  bind hx fun v => pure (f v)

theorem discard {x : EStateM ε σ α} (hx : Keeps R x) : Keeps R (Functor.discard x) :=
  map (fun _ => ()) hx

theorem forM {f : α → EStateM ε σ Unit} (xs : List α) (hf : ∀ x ∈ xs, Keeps R (f x)) :
    Keeps R (xs.forM f) := by
  induction xs with
  | nil => exact pure ()
  | cons x xs ih =>
    have hx := hf x (List.mem_cons_self ..)
    exact bind hx fun _ => ih fun y hy => hf y (List.mem_cons_of_mem x hy)

theorem foldlM {f : β → α → EStateM ε σ β} (xs : List α) (b : β)
    (hf : ∀ b, ∀ x ∈ xs, Keeps R (f b x)) : Keeps R (xs.foldlM f b) := by
  induction xs generalizing b with
  | nil => exact pure b
  | cons x xs ih =>
    rw [List.foldlM_cons]
    apply bind (hf b x (List.mem_cons_self ..))
    intro c
    exact ih c fun b y hy => hf b y (List.mem_cons_of_mem x hy)

end Keeps

end TensorGraph
