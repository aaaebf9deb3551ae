import TensorGraph.Proofs.Network.Loading
import TensorGraph.Proofs.Program.Consing

/-!
# Buffers bound to a program

Binding a program on the host gives each of its leaves a buffer of its shape, and nothing else gets
one. Uploads change what a buffer holds, and nothing else of it.
-/

namespace TensorGraph

/-- Buffers of the host for leaves of a program, each with the shape of its leaf. -/
def Buffers.Fit (bufs : Buffers) (p : Program) : Prop :=
  ∀ id b, Table.get? bufs id = some b →
    b.backend = .host ∧ ∃ zero, p.cell? id = some (.leaf b.shape zero)

/-- The buffers after uploads, one after the other. One that fails changes nothing. -/
def Buffers.afterUploads (bufs : Buffers) (us : List (Int × Data)) : Buffers :=
  us.foldl (fun bufs u => (bufs.upload u.1 u.2).toOption.getD bufs) bufs

/-! ### Single buffers -/

variable {room : Nat → Bool}

theorem Buffer.allocate_host {s : Shape} {b : Buffer}
    (h : Buffer.allocate room .host s = .ok b) :
    b.backend = .host ∧ b.shape = s := by
  simp only [allocate] at h
  split at h
  · cases h
  · cases h
    exact ⟨rfl, rfl⟩

theorem Backend.allocate_host {id : Nat} {s : Shape} {zero : Bool} {b : Buffer}
    (h : Backend.host.allocate room (id, s, zero) = .ok b) : b.backend = .host ∧ b.shape = s := by
  simp only [allocate] at h
  cases hb : Buffer.allocate room .host s with
  | error e =>
    rw [hb] at h
    cases h
  | ok b₀ =>
    rw [hb] at h
    cases h
    obtain ⟨hbackend, hshape⟩ := Buffer.allocate_host hb
    cases zero with
    | false => exact ⟨hbackend, hshape⟩
    | true => exact ⟨hbackend, hshape⟩

/-- A buffer keeps its place and its shape. -/
theorem Buffer.upload_keeps {b b' : Buffer} {d : Data} (h : b.upload d = .ok b') :
    b'.backend = b.backend ∧ b'.shape = b.shape := by
  simp only [upload] at h
  cases hb : b.backend with
  | abstract =>
    rw [hb] at h
    cases h
  | host =>
    rw [hb] at h
    cases ht : Tensor.ofData d with
    | error e =>
      rw [ht] at h
      cases h
    | ok t =>
      rw [ht] at h
      obtain ⟨-, -, rfl⟩ := Buffers.write_eq_ok.mp h
      exact ⟨hb, rfl⟩

namespace Buffers

variable {bufs bufs' : Buffers} {p : Program}

theorem getBuffer_natCast {id : Nat} {b : Buffer} (h : Table.get? bufs id = some b) :
    bufs.getBuffer id = .ok b := by
  simp [getBuffer, h]

/-- An upload replaces a buffer that is there. -/
theorem upload_ok {id : Int} {d : Data} (h : bufs.upload id d = .ok bufs') :
    ∃ b b', Table.get? bufs id.toNat = some b ∧ b.upload d = .ok b' ∧
      bufs' = Table.insert bufs id.toNat b' := by
  simp only [upload] at h
  cases hb : bufs.getBuffer id with
  | error e =>
    rw [hb] at h
    cases h
  | ok b =>
    have hget : Table.get? bufs id.toNat = some b := by
      simp only [getBuffer] at hb
      split at hb
      · rename_i hfound
        cases hb
        split at hfound
        · exact hfound
        · cases hfound
      · cases hb
    rw [hb] at h
    simp only [bind, Except.bind] at h
    cases hb' : b.upload d with
    | error e =>
      rw [hb'] at h
      cases h
    | ok b' =>
      rw [hb'] at h
      cases h
      exact ⟨b, b', hget, hb', rfl⟩

/-! ### Maps of buffers -/

theorem Fit.insert (h : bufs.Fit p) {id : Nat} {b : Buffer} (hbackend : b.backend = .host)
    {zero : Bool} (hcell : p.cell? id = some (.leaf b.shape zero)) :
    Fit (Table.insert bufs id b) p := by
  intro id' b' hget
  rw [Table.get?_insert] at hget
  split at hget
  · rename_i hid
    cases hget
    exact ⟨hbackend, zero, (beq_iff_eq.mp hid) ▸ hcell⟩
  · exact h id' b' hget

theorem Fit.mono {q : Program} (h : bufs.Fit p) (hpq : p.Extends q) : bufs.Fit q := by
  intro id b hget
  obtain ⟨hbackend, zero, hcell⟩ := h id b hget
  exact ⟨hbackend, zero, hpq id _ hcell⟩

/-- Binding makes a buffer for each leaf. -/
theorem fit_bind (h : Backend.host.bind room p = .ok bufs) : bufs.Fit p := by
  have hall : ∀ (leaves : List (Nat × Shape × Bool)) (bufs₀ : Buffers), bufs₀.Fit p →
      (∀ leaf ∈ leaves, p.cell? leaf.1 = some (.leaf leaf.2.1 leaf.2.2)) →
      leaves.foldlM (fun bufs leaf => do
        let b ← Backend.host.allocate room leaf
        return bufs.insert leaf.1 b) bufs₀ = .ok bufs → bufs.Fit p := by
    intro leaves
    induction leaves with
    | nil =>
      intro bufs₀ hfit _ hrun
      cases hrun
      exact hfit
    | cons leaf leaves ih =>
      intro bufs₀ hfit hleaves hrun
      obtain ⟨id, s, zero⟩ := leaf
      rw [List.foldlM_cons] at hrun
      cases hb : Backend.host.allocate room (id, s, zero) with
      | error e =>
        rw [hb] at hrun
        cases hrun
      | ok b =>
        rw [hb] at hrun
        obtain ⟨hbackend, rfl⟩ := Backend.allocate_host hb
        have hcell := hleaves (id, b.shape, zero) (List.mem_cons_self ..)
        exact ih _ (hfit.insert hbackend hcell)
          (fun leaf hleaf => hleaves leaf (List.mem_cons_of_mem _ hleaf)) hrun
  refine hall p.leaves Table.empty (fun id b hget => ?_) (fun leaf hleaf => ?_) h
  · rw [Table.get?_empty] at hget
    cases hget
  · exact Program.mem_leaves.mp hleaf

theorem Fit.upload (h : bufs.Fit p) {id : Int} {d : Data} (hrun : bufs.upload id d = .ok bufs') :
    bufs'.Fit p := by
  obtain ⟨b, b', hb, hupload, rfl⟩ := upload_ok hrun
  obtain ⟨hbackend, zero, hcell⟩ := h _ b hb
  obtain ⟨hbackend', hshape⟩ := Buffer.upload_keeps hupload
  exact h.insert (hbackend'.trans hbackend) (hshape ▸ hcell)

theorem Fit.afterUploads (h : bufs.Fit p) (us : List (Int × Data)) :
    (bufs.afterUploads us).Fit p := by
  simp only [Buffers.afterUploads]
  induction us generalizing bufs with
  | nil => exact h
  | cons u us ih =>
    rw [List.foldl_cons]
    cases hrun : bufs.upload u.1 u.2 with
    | error e => exact ih h
    | ok bufs' => exact ih (h.upload hrun)

/-- What a buffer of the host holds can be read. -/
theorem download_elements {id : Nat} {s : Shape} {xs : List Number.Floating}
    (h : Table.get? bufs id = some ⟨.host, s, .elements xs⟩) :
    bufs.download id = .ok (s, some xs) := by
  simp only [download, getBuffer_natCast h]
  rfl

end Buffers

end TensorGraph
