import TensorGraph.Proofs.Gradient.Abreast

/-!
# Requests for passes

A request names nodes of one arena. Whether it is accepted depends on what these nodes are, so
corresponding requests are accepted alike in an arena and in one that it stands in, and then their
plans correspond.
-/

namespace TensorGraph

namespace Differentiation

variable {E : Embedding} {s s' : Differentiation} {k : ArenaId} {y : Nat} {n : Node}
  {seed seed' : Option Operand} {wrt wrt' : Option (List Operand)}

/-- Both seeds are given, as corresponding nodes, or none is. -/
def SeedsMatch (E : Embedding) (k : ArenaId) : Option Operand → Option Operand → Prop :=
  Option.Rel fun o o' => ∃ g h, o = .expr ⟨k, g⟩ ∧ o' = .expr ⟨k, h⟩ ∧ E.Matches g h

/-- The arenas in which passes start have grown in parallel. -/
theorem exists_seeded (hseeds : SeedsMatch E k seed seed') (sh : Shape) :
    ∃ F, E.Extends F ∧ F.inner = seeded E.inner sh seed ∧ F.outer = seeded E.outer sh seed' ∧
      F.Matches (seedIndex E.inner seed) (seedIndex E.outer seed') := by
  cases hseeds with
  | none =>
    have hleaf : ∀ c ∈ (⟨.leaf .param, sh, some "grad"⟩ : Node).operands, c < E.inner.size := nofun
    exact ⟨E.push hleaf, E.extends_push hleaf, rfl, rfl, E.matches_push hleaf⟩
  | some h =>
    obtain ⟨g, h, rfl, rfl, hgh⟩ := h
    exact ⟨E, .refl E, rfl, rfl, hgh⟩

/-- The arenas in which passes from corresponding nodes start correspond, and so do their plans. -/
theorem exists_within (hinner : E.inner = s.arena) (houter : E.outer = s'.arena)
    (hy : y < E.inner.size) (hseeds : SeedsMatch E k seed seed') {sh : Shape}
    (hready : (s.plan y sh seed wrt).Ready sh)
    (hready' : (s'.plan (E.place y) sh seed' wrt').Ready sh)
    (hasked : ∀ F, E.Extends F → ∀ p < F.inner.size, AskedFor wrt p → AskedFor wrt' (F.place p))
    (hentries : ∀ m < E.inner.size, s.context.grads.get? m = none ∨
      Option.Rel E.Matches (s.context.grads.get? m) (s'.context.grads.get? (E.place m : Nat))) :
    ∃ F, E.Extends F ∧ (s.plan y sh seed wrt).Within F sh (s'.plan (E.place y) sh seed' wrt') := by
  obtain ⟨F, hEF, hF, hF', hseed⟩ := exists_seeded hseeds sh
  rw [hinner] at hF hseed
  rw [houter] at hF' hseed
  refine ⟨F, hEF, hF, hF', hready, hready', (hEF.place y hy).symm, hseed, hasked F hEF, ?_⟩
  intro m hm
  have hm := Nat.lt_of_le_of_lt (hready.le_output hm.reached) hy
  rw [hEF.place m hm]
  exact (hentries m hm).imp_right (Embedding.rel_mono hEF)

end Differentiation

/-- What a pass is asked for, in nodes of one arena. -/
structure Request where
  output : Int
  seed : Option Int
  wrt : Option (List Int)
deriving DecidableEq, Repr, Inhabited

namespace Request

/-- A node of an arena as an operand. -/
def operand (k : ArenaId) (i : Int) : Operand := .expr ⟨k, i⟩

/-- The seed, as it is given to a pass. -/
def seedIn (k : ArenaId) (r : Request) : Option Operand := r.seed.map (operand k)

/-- What is asked for, as it is given to a pass. -/
def wrtIn (k : ArenaId) (r : Request) : Option (List Operand) :=
  r.wrt.map fun ps => ps.map (operand k)

def backward (k : ArenaId) (r : Request) : Differentiate Outcome :=
  Differentiation.backward (operand k r.output) (r.seedIn k) (r.wrtIn k)

/-- All that a request names. -/
def named (r : Request) : List Int := r.output :: (r.seed.toList ++ r.wrt.getD [])

/-- A request names nodes of an arena only. -/
def Over (a : Arena) (r : Request) : Prop := ∀ i ∈ r.named, ∃ m < a.size, i = (m : Nat)

/-- A request that a context accepts that may ask about the arena. -/
structure Accepted (a : Arena) (r : Request) (n : Node) : Prop where
  output : a.at? r.output = some n
  seed : ∀ g ∈ r.seed, ∃ m, a.at? g = some m ∧ m.shape = n.shape
  wrt : ∀ ps ∈ r.wrt, ∀ p ∈ ps, ∃ m, a.at? p = some m ∧ m.kind = .param

/-- The requests name corresponding nodes. -/
structure Matches (E : Embedding) (r r' : Request) : Prop where
  output : E.Matches r.output r'.output
  seed : Option.Rel E.Matches r.seed r'.seed
  wrt : Option.Rel (List.Forall₂ E.Matches) r.wrt r'.wrt

open Differentiation

variable {a b : Arena} {k : ArenaId} {r r' : Request} {s : Differentiation} {n : Node}

theorem Over.of_extends (h : r.Over a) (hab : a.Extends b) : r.Over b := by
  intro i hi
  obtain ⟨m, hm, rfl⟩ := h i hi
  exact ⟨m, Nat.lt_of_lt_of_le hm (Embedding.size_le_of_extends hab), rfl⟩

theorem Over.output (h : r.Over a) : ∃ m < a.size, r.output = (m : Nat) :=
  h _ (List.mem_cons_self ..)

theorem Over.seed (h : r.Over a) : ∀ g ∈ r.seed, ∃ m < a.size, g = (m : Nat) := fun g hg =>
  h g (List.mem_cons_of_mem _ (List.mem_append_left _ (Option.mem_toList.mpr hg)))

theorem Over.wrt (h : r.Over a) : ∀ ps ∈ r.wrt, ∀ p ∈ ps, ∃ m < a.size, p = (m : Nat) := by
  intro ps hps p hp
  refine h p (List.mem_cons_of_mem _ (List.mem_append_right _ ?_))
  rw [Option.mem_def.mp hps]
  exact hp

/-- What is accepted of nodes that are there does not depend on a default seed. -/
theorem accepts_iff (hover : r.Over s.arena) (henabled : s.context.requiresGrad = true)
    (hbound : ∀ b, s.context.arena = some b → b = k) :
    Accepts s (operand k r.output) (r.seedIn k) (r.wrtIn k) ⟨k, r.output⟩ n ↔
      r.Accepted s.arena n := by
  -- a node that is there is the same after a default seed was appended
  have hat : ∀ {i : Int}, (∃ m < s.arena.size, i = (m : Nat)) →
      (seeded s.arena n.shape (r.seedIn k)).at? i = s.arena.at? i := by
    rintro i ⟨m, hm, rfl⟩
    obtain ⟨node, hnode⟩ := Arena.exists_node? hm
    rw [Arena.at?_ofNat, Arena.at?_ofNat, hnode, extends_seeded _ _ _ m node hnode]
  constructor
  · intro h
    refine ⟨h.node, fun g hg => ?_, fun ps hps p hp => ?_⟩
    · have hseed : r.seedIn k = some (operand k g) := by rw [seedIn, Option.mem_def.mp hg]; rfl
      obtain ⟨g', m, hg', hm, hshape⟩ := h.fits _ hseed
      cases hg'
      exact ⟨m, hm, hshape⟩
    · have hwrt : r.wrtIn k = some (ps.map (operand k)) := by
        rw [wrtIn, Option.mem_def.mp hps]; rfl
      obtain ⟨p', m, hp', hm, hkind⟩ := h.targets _ hwrt _ (List.mem_map_of_mem hp)
      cases hp'
      rw [hat (hover.wrt ps hps p hp)] at hm
      exact ⟨m, hm, hkind⟩
  · intro h
    refine ⟨henabled, ⟨rfl, hbound⟩, h.output, fun o ho => ?_, fun ps hps o ho => ?_⟩
    · obtain ⟨g, hg, rfl⟩ := Option.map_eq_some_iff.mp ho
      obtain ⟨m, hm, hshape⟩ := h.seed g hg
      exact ⟨g, m, rfl, hm, hshape⟩
    · obtain ⟨qs, hqs, rfl⟩ := Option.map_eq_some_iff.mp hps
      obtain ⟨p, hp, rfl⟩ := List.mem_map.mp ho
      obtain ⟨m, hm, hkind⟩ := h.wrt qs hqs p hp
      rw [← hat (hover.wrt qs hqs p hp)] at hm
      exact ⟨p, m, rfl, hm, hkind⟩

theorem askedFor_wrtIn {p : Nat} : AskedFor (r.wrtIn k) p ↔ ∀ ps ∈ r.wrt, (p : Int) ∈ ps := by
  simp only [AskedFor, wrtIn]
  cases r.wrt with
  | none => simp
  | some ps => simp [operand]

namespace Matches

variable {E F : Embedding}

theorem exists_at? {g h : Int} (hgh : E.Matches g h) :
    ∃ n, E.inner.at? g = some n ∧ E.outer.at? h = some (n.rename E.place) := by
  obtain ⟨i, n, rfl, rfl, hn, hn'⟩ := hgh.exists_node
  exact ⟨n, by rw [Arena.at?_ofNat, hn], by rw [Arena.at?_ofNat, hn']⟩

/-- Corresponding requests name corresponding nodes. -/
theorem named (h : r.Matches E r') : List.Forall₂ E.Matches r.named r'.named := by
  refine .cons h.output (List.rel_append ?_ ?_)
  · have hseed := h.seed
    generalize r.seed = g at hseed
    generalize r'.seed = g' at hseed
    cases hseed with
    | none => exact .nil
    | some hgh => exact .cons hgh .nil
  · have hwrt := h.wrt
    generalize r.wrt = ps at hwrt
    generalize r'.wrt = ps' at hwrt
    cases hwrt with
    | none => exact .nil
    | some hps => exact hps

theorem inner_over (h : r.Matches E r') : r.Over E.inner :=
  ((List.forall₂_and_left _ _).mp (h.named.imp fun _ _ hgh =>
    ⟨hgh.imp fun _ hi => ⟨hi.1, hi.2.1⟩, hgh⟩)).1

theorem outer_over (h : r.Matches E r') : r'.Over E.outer := by
  have hflip : List.Forall₂ (flip E.Matches) r'.named r.named := .flip h.named
  refine ((List.forall₂_and_left _ _).mp (hflip.imp fun _ _ hgh => ⟨?_, hgh⟩)).1
  obtain ⟨i, hi, -, rfl⟩ := hgh
  exact ⟨E.place i, Embedding.place_lt hi, rfl⟩

/-- Nodes that keep their places correspond to themselves. -/
theorem refl_of_over (hover : r.Over E.inner) (hplace : ∀ i < E.inner.size, E.place i = i) :
    r.Matches E r := by
  have hself : ∀ g ∈ r.named, E.Matches g g := by
    intro g hg
    obtain ⟨m, hm, rfl⟩ := hover g hg
    exact ⟨m, hm, rfl, by rw [hplace m hm]⟩
  have hmem : ∀ {g}, g ∈ r.seed.toList ++ r.wrt.getD [] → E.Matches g g := fun hg =>
    hself _ (List.mem_cons_of_mem _ hg)
  refine ⟨hself _ (List.mem_cons_self ..), ?_, ?_⟩
  · cases hseed : r.seed with
    | none => exact .none
    | some g => exact .some (hmem (List.mem_append_left _ (by simp [hseed])))
  · cases hwrt : r.wrt with
    | none => exact .none
    | some ps =>
      refine .some (List.forall₂_same.mpr fun p hp => hmem (List.mem_append_right _ ?_))
      rw [hwrt]
      exact hp

/-- A seed has the shape of the output on both sides, or on none. -/
theorem seed_iff (h : r.Matches E r') (sh : Shape) :
    (∀ g ∈ r'.seed, ∃ m, E.outer.at? g = some m ∧ m.shape = sh) ↔
      ∀ g ∈ r.seed, ∃ m, E.inner.at? g = some m ∧ m.shape = sh := by
  have hseed := h.seed
  generalize r.seed = g at hseed
  generalize r'.seed = g' at hseed
  cases hseed with
  | none => simp
  | some hgh =>
    obtain ⟨m, hm, hm'⟩ := exists_at? hgh
    simp [hm, hm']

/-- Parameters are asked for on both sides, or on none. -/
theorem wrt_iff (h : r.Matches E r') :
    (∀ ps ∈ r'.wrt, ∀ p ∈ ps, ∃ m, E.outer.at? p = some m ∧ m.kind = .param) ↔
      ∀ ps ∈ r.wrt, ∀ p ∈ ps, ∃ m, E.inner.at? p = some m ∧ m.kind = .param := by
  have hwrt := h.wrt
  generalize r.wrt = ps at hwrt
  generalize r'.wrt = ps' at hwrt
  cases hwrt with
  | none => simp
  | some hps =>
    simp only [Option.mem_some_iff, forall_eq']
    induction hps with
    | nil => simp
    | cons hgh _ ih =>
      obtain ⟨m, hm, hm'⟩ := exists_at? hgh
      simp [hm, hm', ih]

/-- Corresponding requests are accepted alike. -/
theorem accepted (h : r.Matches E r') (haccepted : r.Accepted E.inner n) :
    r'.Accepted E.outer (n.rename E.place) := by
  obtain ⟨m, hm, hm'⟩ := exists_at? h.output
  cases haccepted.output.symm.trans hm
  exact ⟨hm', (h.seed_iff _).mpr haccepted.seed, h.wrt_iff.mpr haccepted.wrt⟩

theorem exists_accepted (h : r.Matches E r') {n' : Node} (haccepted : r'.Accepted E.outer n') :
    ∃ n, r.Accepted E.inner n := by
  obtain ⟨m, hm, hm'⟩ := exists_at? h.output
  cases haccepted.output.symm.trans hm'
  exact ⟨m, hm, (h.seed_iff _).mp haccepted.seed, h.wrt_iff.mp haccepted.wrt⟩

theorem seedsMatch (h : r.Matches E r') : SeedsMatch E k (r.seedIn k) (r'.seedIn k) := by
  have hseed := h.seed
  simp only [seedIn]
  generalize r.seed = g at hseed
  generalize r'.seed = g' at hseed
  cases hseed with
  | none => exact .none
  | some hgh => exact .some ⟨_, _, rfl, rfl, hgh⟩

/-- Places of what is asked for are asked for. -/
theorem askedFor_iff (h : r.Matches E r') (hEF : E.Extends F) {p : Nat} (hp : p < F.inner.size) :
    AskedFor (r'.wrtIn k) (F.place p) ↔ AskedFor (r.wrtIn k) p := by
  rw [askedFor_wrtIn, askedFor_wrtIn]
  have hwrt := h.wrt
  generalize r.wrt = ps at hwrt
  generalize r'.wrt = ps' at hwrt
  cases hwrt with
  | none => simp
  | some hps =>
    simp only [Option.mem_some_iff, forall_eq']
    have hps := Embedding.forall₂_mono hEF hps
    exact (List.rel_mem F.biUnique (Embedding.matches_place hp) hps).symm

end Matches

end Request

end TensorGraph
