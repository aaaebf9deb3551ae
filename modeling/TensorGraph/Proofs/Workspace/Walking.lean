import TensorGraph.Proofs.Workspace.Asking
import TensorGraph.Proofs.Workspace.Tour

/-!
# Walks over objects

A walk that asks an object for its parts and goes through them, unless it has met the object before,
goes where a tour goes. It may store objects on the way, so what it has met is related to what the
tour has met in the workspace at hand.
-/

namespace TensorGraph.Workspace

variable {σ : Type} {R : Workspace → σ → Tour → Prop} {w w₀ : Workspace} {a : Address}

/-- A walk does what a tour does: what either has met is related before and after. -/
def Follows (R : Workspace → σ → Tour → Prop) (walk : σ → Work σ) (tour : Tour → Option Tour) :
    Prop :=
  ∀ w s t t', R w s t → tour t = some t' → ∃ s' w', walk s w = .ok s' w' ∧ R w' s' t'

/-- Where a walk and a tour have met related things, an object may be asked for its parts, both know
the same of it, and both may mark it. -/
structure Admits (w₀ : Workspace) (R : Workspace → σ → Tour → Prop) (a : Address)
    (met : σ → Std.HashSet Address) (mark : σ → σ) : Prop where
  quiet : ∀ {w s t}, R w s t → w.heap.Quiet a
  parts : ∀ {w s t}, R w s t → w.heap.parts a = w₀.heap.parts a
  known : ∀ {w s t}, R w s t → (a ∈ met s ↔ a ∈ t.objects)
  marked : ∀ {w s t}, R w s t → R w (mark s) { t with objects := a :: t.objects }
  /-- Values may be stored on the way. -/
  adds : ∀ {w w' s t}, w.Adds Object.IsValue w' → R w s t → R w' s t

/-- The parts of an object are gone through one after the other. -/
theorem Follows.foldlM {walk : σ → Label × Address → Work σ}
    {tour : Tour → String × Address → Option Tour} {parts : Parts}
    (h : ∀ part ∈ parts, Follows R (fun s => walk s (.text part.1, part.2)) (tour · part)) :
    Follows R (fun s => (labelled parts).foldlM walk s) fun t => parts.foldlM tour t := by
  intro w s t t' hs ht
  induction parts generalizing s t w with
  | nil =>
    cases ht
    exact ⟨s, w, rfl, hs⟩
  | cons part parts ih =>
    simp only [List.foldlM_cons] at ht
    obtain ⟨t₁, ht₁, ht⟩ := Option.bind_eq_some_iff.mp ht
    obtain ⟨s₁, w₁, hwalk, hs₁⟩ := h part (List.mem_cons_self ..) w s t t₁ hs ht₁
    obtain ⟨s', w', hrest, hs'⟩ :=
      ih (fun q hq => h q (List.mem_cons_of_mem part hq)) w₁ s₁ t₁ hs₁ ht
    exact ⟨s', w', (bind_of_ok hwalk).trans hrest, hs'⟩

/-- The parts of an object are gone through when it is met, unless it was met before. -/
theorem follows_object (walk : σ → Label × Address → Work σ) {met : σ → Std.HashSet Address}
    {mark : σ → σ} (h : w₀.Admits R a met mark) {depth : Nat} {path : String}
    (hx : w₀.heap.expr? a = none)
    (hparts : ∀ part ∈ w₀.heap.parts a, Follows R (fun s => walk s (.text part.1, part.2))
      (w₀.tourWithin depth · (joinName path part.1) part.2)) :
    Follows R
      (fun s => do
        askClass call a
        if a ∈ met s then return s
        else (← partsOf a).foldlM walk (mark s))
      (w₀.tourWithin (depth + 1) · path a) := by
  intro w s t t' hs ht
  simp only [tourWithin, hx] at ht
  have hquiet := h.quiet hs
  have hasked := askClass_quiet hquiet
  have hknown := h.known hs
  by_cases hmem : a ∈ t.objects
  · rw [if_pos hmem] at ht
    cases ht
    refine ⟨s, w, (bind_of_ok hasked).trans ?_, hs⟩
    rw [if_pos (hknown.mpr hmem)]
    rfl
  · rw [if_neg hmem] at ht
    obtain ⟨w₁, hadds, hrun⟩ := partsOf_quiet hquiet
    rw [h.parts hs] at hrun
    obtain ⟨s', w', hfold, hs'⟩ :=
      Follows.foldlM hparts w₁ (mark s) _ t' (h.adds hadds (h.marked hs)) ht
    refine ⟨s', w', (bind_of_ok hasked).trans ?_, hs'⟩
    rw [if_neg (mt hknown.mp hmem)]
    exact (bind_of_ok hrun).trans hfold

theorem asking_handle?_quiet (hq : w.heap.Quiet a) :
    asking (fun h => h.handle? a) w = .ok none w := by
  simp only [asking, hq.noHandle]

theorem asking_handle?_expr {e : Expr} (ha : w.heap.get? a = some (.expr e)) :
    asking (fun h => h.handle? a) w = .ok (some (.ofExpr e)) w := by
  simp only [asking, Heap.handle?, ha]

end TensorGraph.Workspace
