import TensorGraph.Proofs.Context.Memo

/-!
# Uniform programs

The key of an instruction does not hold its shape. Where each instruction has the shape of what it
reads, its shape is told by its sources all the same: an instruction that is found has the shape
that was asked for, and no emission over buffers of that shape is refused.
-/

namespace TensorGraph.Program

/-- A buffer of the given shape. -/
def HasShape (p : Program) (id : Nat) (s : Shape) : Prop := ∃ c, p.cell? id = some c ∧ c.shape = s

/-- Instructions have the shape of what they read. -/
def Uniform (p : Program) : Prop :=
  ∀ id i, p.cell? id = some (.instruction i) → ∀ s ∈ i.sources.toList, p.HasShape s i.shape

variable {p q : Program} {id : Nat} {s : Shape} {i : Instruction}

theorem HasShape.extends (h : p.HasShape id s) (hpq : p.Extends q) : q.HasShape id s := by
  obtain ⟨c, hc, hs⟩ := h
  exact ⟨c, hpq id c hc, hs⟩

theorem HasShape.eq {t : Shape} (hs : p.HasShape id s) (ht : p.HasShape id t) : s = t := by
  obtain ⟨c, hc, rfl⟩ := hs
  obtain ⟨d, hd, rfl⟩ := ht
  cases hc.symm.trans hd
  rfl

theorem HasShape.shapeOf (h : p.HasShape id s) : p.shapeOf id = .ok s := by
  obtain ⟨c, hc, rfl⟩ := h
  exact shapeOf_of_cell? hc

theorem uniform_empty : Uniform {} := by
  intro id i h
  simp [cell?] at h

theorem Uniform.congr (h : p.Uniform) (hcells : q.cells = p.cells) : q.Uniform := by
  have hcell := cell?_congr hcells
  intro id i hi s hs
  rw [hcell] at hi
  obtain ⟨c, hc, hshape⟩ := h id i hi s hs
  exact ⟨c, by rw [hcell, hc], hshape⟩

theorem Uniform.push (h : p.Uniform) {c : Cell}
    (hc : ∀ i, c = .instruction i → ∀ s ∈ i.sources.toList, p.HasShape s i.shape) :
    (p.push c).Uniform := by
  have hold := extends_push p c
  intro id i hi s hs
  rw [cell?_push] at hi
  split at hi
  · exact (hc i (Option.some.inj hi) s hs).extends hold
  · exact (h id i hi s hs).extends hold

/-- An instruction with the sources of another one has its shape. -/
theorem Uniform.shape_eq (h : p.Uniform) {j : Instruction}
    (hj : p.cell? id = some (.instruction j)) (hkey : j.key = i.key)
    (hi : ∀ s ∈ i.sources.toList, p.HasShape s i.shape) : j.shape = i.shape := by
  have hsources : j.sources = i.sources := congrArg Key.sources hkey
  have hmem := i.sources.first_mem
  exact (h id j hj _ (hsources ▸ hmem)).eq (hi _ hmem)

/-- An emission over buffers of one shape gives a buffer of that shape. -/
theorem Uniform.emit {digits : Option Nat} (h : p.Uniform) (hp : p.Sound) (strict : Bool)
    {c : Op.Candidate} {shape : Value} {a b : Int}
    (hnew : p.newInstruction digits c shape a b = .ok i) (hnamed : i.op.Named digits)
    (hi : ∀ s ∈ i.sources.toList, p.HasShape s i.shape) :
    ∃ e q, Program.emit digits strict c shape a b p = .ok e q ∧ q.Uniform ∧
      q.HasShape e.id i.shape := by
  cases hfind : p.find? i with
  | some id =>
    obtain ⟨j, hj, hkey⟩ := find?_ok hp hfind
    have hshape := h.shape_eq hj hkey hi
    have hrecorded : cell? { p with hits := p.hits + 1 } id = some (.instruction j) := hj
    have hhit : hit digits strict i id p =
        .ok (.hit id i) (addUsers { p with hits := p.hits + 1 } id i.sources.toList) := by
      obtain ⟨name, hname⟩ := hnamed
      simp [hit, hname, hrecorded, Cell.shape, hshape]
    have hcells : (addUsers { p with hits := p.hits + 1 } id i.sources.toList).cells = p.cells :=
      cells_addUsers _ _ _
    exact ⟨_, _, (emit_of_known hnew hfind).trans hhit, h.congr hcells, _,
      (cell?_congr hcells id).trans hj, hshape⟩
  | none =>
    have hpush : (p.push (.instruction i)).Uniform := h.push fun j hj => by cases hj; exact hi
    exact ⟨_, _, (emit_of_unknown hnew hfind).trans (fresh_of_named hnamed p),
      hpush.congr (cells_addUsers _ _ _), .instruction i,
      (cell?_addUsers _ _ _ _).trans (cell?_addInstruction_self p i), rfl⟩

end TensorGraph.Program
