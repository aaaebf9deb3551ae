import TensorGraph.Proofs.Gradient.Ledger
import TensorGraph.Proofs.Gradient.Request

/-!
# Passes in succession

What a pass gives does not depend on the passes before it: in an arena that has grown since, and
with entries in the table, it gives to every node what it gives to it on a fresh context, and adds
that to the entry. So after any passes an entry is what the gradients that each of them gives alone
accumulate to.
-/

namespace TensorGraph

namespace Unfolding

variable {a : Arena} {sh : Shape}

theorem accumulated_toList (u : Option Unfolding) : accumulated a sh u.toList = u := by
  rw [accumulated_eq]
  cases u with
  | none => rfl
  | some u => cases hu : u.isZero a <;> simp [hu]

/-- More is added to what the first ones accumulate to. -/
theorem accumulated_append_toList (us : List Unfolding) (u : Option Unfolding) :
    accumulated a sh ((accumulated a sh us).toList ++ u.toList) =
      accumulated a sh (us ++ u.toList) := by
  cases u with
  | none => simp only [Option.toList_none, List.append_nil, accumulated_toList]
  | some u => exact (accumulated_concat us u).symm

end Unfolding

/-- Corresponding nodes have one shape. -/
theorem Embedding.Matches.has {E : Embedding} {g h : Int} (hgh : E.Matches g h) {sh : Shape}
    (hg : E.inner.Has sh g) : E.outer.Has sh h := by
  obtain ⟨i, n, rfl, rfl, hn, hn'⟩ := hgh.exists_node
  obtain ⟨j, m, hj, hm, hshape⟩ := hg
  obtain rfl := Int.natCast_inj.mp hj
  cases hn.symm.trans hm
  exact ⟨_, _, rfl, hn', hshape⟩

/-- Where the first pass found nothing before, its entry is what the second one adds. -/
theorem Abreast.accumulated_eq {R : Type} [CommRing R] {Φ : Functions R} {ρ : Nat → R}
    {E₀ E : Embedding} {sh : Shape} {π π' : Plan} {s t : Pass} {a : Arena}
    (h : Abreast E₀ π π' a.size [] E s t) (hw : π.Within E₀ sh π')
    (hsweep : Sweeping Φ ρ π sh [] s) (hsweep' : Sweeping Φ ρ π' sh [] t)
    (hstart : a.Extends t.arena) (hbase : a.size ≤ E₀.inner.size)
    (hplace : ∀ i < a.size, E₀.place i = i) {n : Nat} (hn : π.Live n) (hlt : n < a.size)
    (hnone : π.grads.get? n = none) :
    ∃ g k : Int, s.grads.get? n = some g ∧ t.grads.get? n = some k ∧
      Unfolding.accumulated a sh
        (((π'.grads.get? n).map fun o => t.arena.unfold a.size o.toNat).toList ++
          [s.arena.unfold a.size g.toNat]) = some (t.arena.unfold a.size k.toNat) := by
  obtain ⟨g, h', g', k, hgh, hg, hk, hadds, hadds', -⟩ := h.settled n hn (by simp)
  have hlive := hw.live hn
  rw [hplace n hlt] at hk hadds' hlive
  rw [hnone] at hadds
  cases hadds
  rw [h.shadows.outer] at hadds'
  obtain ⟨x, hx, hdenotes⟩ := hsweep.get?_live hn
  cases hg.symm.trans hx
  obtain ⟨x, hx, hdenotes'⟩ := hsweep'.get?_live hlive
  cases hk.symm.trans hx
  have hgiven : t.arena.Has sh h' := by
    rw [← h.shadows.outer]
    exact hgh.has (h.shadows.inner ▸ hdenotes.1)
  have hold : ∀ o ∈ π'.grads.get? n, t.arena.Has sh o := by
    intro o ho
    obtain ⟨node, hnode, hshape⟩ := hw.ready'.exists_node hlive.reached
    exact hshape ▸ (hw.ready'.entries n node o hnode ho).of_extends hsweep'.kept
  have hsame : t.arena.unfold a.size h'.toNat = s.arena.unfold a.size g.toNat := by
    rw [← h.shadows.inner, ← h.shadows.outer]
    refine hgh.unfold_eq fun x hx => ?_
    rw [h.grown.place x (Nat.lt_of_lt_of_le hx hbase), hplace x hx]
  refine ⟨g, k, hg, hk, ?_⟩
  rw [← hsame]
  exact hadds'.accumulated hsweep'.valid.regular.wellFormed hstart hold hgiven hdenotes'.1

namespace Differentiation

/-- What the gradient of a node unfolds to, if it has one. -/
def gradient? (s : Differentiation) (base n : Nat) : Option Unfolding :=
  (s.context.grads.get? n).map fun g => s.arena.unfold base g.toNat

/-- A context in an arena that has grown from an earlier one. -/
structure Under (a : Arena) (k : ArenaId) (s : Differentiation) : Prop where
  regular : s.arena.Regular
  grown : a.Extends s.arena
  enabled : s.context.requiresGrad = true
  bound : ∀ b, s.context.arena = some b → b = k
  shaped : s.arena.Shaped s.context.grads

theorem under_fresh {a : Arena} (ha : a.Regular) (k : ArenaId) :
    Under a k ⟨a, .fresh true⟩ := by
  refine ⟨ha, Arena.Extends.refl a, rfl, nofun, fun i g hg => ?_⟩
  rw [Context.fresh] at hg
  cases (Table.get?_empty i).symm.trans hg

/-- Passes that corresponding requests ask for, each from a state of its own, carried out
abreast. -/
structure RunAbreast (E : Embedding) (k : ArenaId) (r r' : Request) (n : Node)
    (s s' : Differentiation) (y : Nat) (F G : Embedding) (p p' : Pass) : Prop where
  lt : y < E.inner.size
  output : r.output = y
  output' : r'.output = E.place y
  grown : E.Extends F
  asked : ∀ i < F.inner.size, AskedFor (r'.wrtIn k) (F.place i) → AskedFor (r.wrtIn k) i
  accepts : s.Accepts (Request.operand k r.output) (r.seedIn k) (r.wrtIn k) ⟨k, r.output⟩ n
  accepts' : s'.Accepts (Request.operand k r'.output) (r'.seedIn k) (r'.wrtIn k) ⟨k, r'.output⟩
    (n.rename E.place)
  ready : (s.plan y n.shape (r.seedIn k) (r.wrtIn k)).Ready n.shape
  ready' : (s'.plan (E.place y) n.shape (r'.seedIn k) (r'.wrtIn k)).Ready n.shape
  within : (s.plan y n.shape (r.seedIn k) (r.wrtIn k)).Within F n.shape
    (s'.plan (E.place y) n.shape (r'.seedIn k) (r'.wrtIn k))
  ok : ∃ count, r.backward k s =
    .ok ⟨p.found.toList, count⟩ ⟨p.arena, { s.context with arena := some k, grads := p.grads }⟩
  ok' : ∃ count, r'.backward k s' =
    .ok ⟨p'.found.toList, count⟩ ⟨p'.arena, { s'.context with arena := some k, grads := p'.grads }⟩
  sweeping : Sweeping (R := Int) ⟨id, id, id, id⟩ (fun _ => 0)
    (s.plan y n.shape (r.seedIn k) (r.wrtIn k)) n.shape [] p
  sweeping' : Sweeping (R := Int) ⟨id, id, id, id⟩ (fun _ => 0)
    (s'.plan (E.place y) n.shape (r'.seedIn k) (r'.wrtIn k)) n.shape [] p'
  abreast : Abreast F (s.plan y n.shape (r.seedIn k) (r.wrtIn k))
    (s'.plan (E.place y) n.shape (r'.seedIn k) (r'.wrtIn k)) E.inner.size [] G p p'

namespace RunAbreast

variable {E F G : Embedding} {k : ArenaId} {r r' : Request} {n : Node} {s s' : Differentiation}
  {y m : Nat} {p p' : Pass}

theorem lt_of_reached (h : RunAbreast E k r r' n s s' y F G p p')
    (hm : (s.plan y n.shape (r.seedIn k) (r.wrtIn k)).Reached m) : m < E.inner.size :=
  Nat.lt_of_le_of_lt (h.ready.le_output hm) h.lt

/-- What is live in the second pass is live in the first one, if nodes keep their places. -/
theorem live_of_live (h : RunAbreast E k r r' n s s' y F G p p')
    (hplace : ∀ i < E.inner.size, E.place i = i)
    (hm : (s'.plan (E.place y) n.shape (r'.seedIn k) (r'.wrtIn k)).Live m) :
    (s.plan y n.shape (r.seedIn k) (r.wrtIn k)).Live m := by
  obtain ⟨i, hi, him⟩ := (h.within.reached m).mp hm.reached
  have hlt := h.lt_of_reached hi
  have hsame : F.place i = i := (h.grown.place i hlt).trans (hplace i hlt)
  obtain rfl : i = m := hsame.symm.trans him
  rw [← hsame] at hm
  exact h.within.live_of_place h.asked
    (Nat.lt_of_lt_of_le hlt (Embedding.size_le_of_extends h.grown.inner)) hm

end RunAbreast

namespace Under

variable {a : Arena} {k : ArenaId} {s : Differentiation} {r : Request} {n : Node}

/-- An accepted request is ready to be carried out. -/
theorem ready (h : s.Under a k) (hover : r.Over s.arena) (haccepted : r.Accepted s.arena n) :
    ∃ y : Nat, r.output = y ∧ y < s.arena.size ∧
      s.Accepts (Request.operand k r.output) (r.seedIn k) (r.wrtIn k) ⟨k, r.output⟩ n ∧
      (s.plan y n.shape (r.seedIn k) (r.wrtIn k)).Ready n.shape := by
  have haccepts := (Request.accepts_iff hover h.enabled h.bound).mpr haccepted
  obtain ⟨y, hy, houtput⟩ := hover.output
  refine ⟨y, houtput, hy, haccepts, haccepts.ready houtput ?_ h.regular h.shaped⟩
  rintro o ho e rfl
  obtain ⟨g, hg, hge⟩ := Option.map_eq_some_iff.mp ho
  cases hge
  obtain ⟨m, -, rfl⟩ := hover.seed g hg
  exact Int.natCast_nonneg m

/-- Corresponding requests of which one is accepted are carried out abreast, when the entries that
the first one has correspond to entries of the other one. -/
theorem exists_runAbreast {b : Arena} {s' : Differentiation} {r' : Request} {E : Embedding}
    (h : s.Under a k) (h' : s'.Under b k) (hinner : E.inner = s.arena) (houter : E.outer = s'.arena)
    (hmatches : r.Matches E r') (haccepted : r.Accepted E.inner n)
    (hentries : ∀ m < E.inner.size, s.context.grads.get? m = none ∨
      Option.Rel E.Matches (s.context.grads.get? m) (s'.context.grads.get? (E.place m : Nat))) :
    ∃ y F G p p', RunAbreast E k r r' n s s' y F G p p' := by
  have haccepted' := hmatches.accepted haccepted
  have hover := hmatches.inner_over
  have hover' := hmatches.outer_over
  rw [hinner] at haccepted hover
  rw [houter] at haccepted' hover'
  obtain ⟨y, hy, hlt, haccepts, hready⟩ := h.ready hover haccepted
  obtain ⟨y', hy', -, haccepts', hready'⟩ := h'.ready hover' haccepted'
  obtain rfl : y' = E.place y := by
    obtain ⟨i, -, hi, hi'⟩ := hmatches.output
    obtain rfl := Int.natCast_inj.mp (hy.symm.trans hi)
    exact Int.natCast_inj.mp (hy'.symm.trans hi')
  rw [← hinner] at hlt
  have hasked : ∀ F, E.Extends F → ∀ p < F.inner.size,
      AskedFor (r'.wrtIn k) (F.place p) ↔ AskedFor (r.wrtIn k) p := fun F hEF p hp =>
    hmatches.askedFor_iff hEF hp
  obtain ⟨F, hEF, hw⟩ := exists_within hinner houter hlt hmatches.seedsMatch hready hready'
    (fun F hEF p hp => (hasked F hEF p hp).mpr) hentries
  obtain ⟨G, p, p', count, count', hok, hok', hsweep, hsweep', habreast⟩ :=
    haccepts.backward_abreast (R := Int) ⟨id, id, id, id⟩ (fun _ => 0) haccepts' hy hy' hw
      (Embedding.size_le_of_extends hEF.inner)
  exact ⟨y, F, G, p, p', hlt, hy, hy', hEF, fun i hi => (hasked F hEF i hi).mp, haccepts, haccepts',
    hready, hready', hw, ⟨count, hok⟩, ⟨count', hok'⟩, hsweep, hsweep', habreast⟩

/-- A request that is not accepted is refused, and the gradients stay. -/
theorem refused (h : s.Under a k) (hover : r.Over s.arena) (hno : ∀ n, ¬r.Accepted s.arena n) :
    ∃ err t, r.backward k s = .error err t ∧ s.context.KeepsGradients t.context := by
  rcases backward_cases (Request.operand k r.output) (r.seedIn k) (r.wrtIn k) s with
    ⟨e, n, -, haccepts, -⟩ | ⟨-, hrefused⟩
  · obtain rfl := (Operand.expr.inj haccepts.admits.1).symm
    exact absurd ((Request.accepts_iff hover h.enabled h.bound).mp haccepts) (hno n)
  · exact hrefused

/-- A request leaves a context in an arena that has grown, whether it is accepted or refused. -/
theorem backward (h : s.Under a k) (hover : r.Over s.arena) :
    (stateAfter (r.backward k s)).Under a k := by
  have hgrows := (backward_keeps (Request.operand k r.output) (r.seedIn k) (r.wrtIn k) s).1
  have hgraded := backward_regraded (Request.operand k r.output) (r.seedIn k) (r.wrtIn k) s
  change s.arena.GrowsUniformly (stateAfter (r.backward k s)).arena at hgrows
  change s.context.Regraded (stateAfter (r.backward k s)).context at hgraded
  have henabled : (stateAfter (r.backward k s)).context.requiresGrad = true := by
    obtain ⟨_, _, hcontext⟩ := hgraded
    rw [hcontext]
    exact h.enabled
  have hbound := backward_bound (e := ⟨k, r.output⟩) h.enabled ⟨rfl, h.bound⟩ (r.seedIn k)
    (r.wrtIn k)
  change (stateAfter (r.backward k s)).context.arena = some k at hbound
  have hbound' : ∀ b, (stateAfter (r.backward k s)).context.arena = some b → b = k := fun b hb =>
    Option.some.inj (hb.symm.trans hbound)
  have hgrown := h.grown.trans hgrows.1.1
  have hregular := hgrows.regular h.regular
  by_cases haccepted : ∃ n, r.Accepted s.arena n
  · obtain ⟨n, haccepted⟩ := haccepted
    obtain ⟨y, hy, -, haccepts, hready⟩ := h.ready hover haccepted
    obtain ⟨p, count, hok, hsweep⟩ :=
      haccepts.backward_ok (R := Int) ⟨id, id, id, id⟩ (fun _ => 0) hy hready
    change r.backward k s = _ at hok
    refine ⟨hregular, hgrown, henabled, hbound', ?_⟩
    rw [hok]
    exact hsweep.shaped hready (h.shaped.of_extends (extends_seeded _ _ _))
  · obtain ⟨err, t, herror, hgrads⟩ := h.refused hover fun n hn => haccepted ⟨n, hn⟩
    refine ⟨hregular, hgrown, henabled, hbound', ?_⟩
    rw [herror] at hgrows ⊢
    exact hgrads.1 ▸ h.shaped.of_extends hgrows.1.1

/-- Growing the arena does not change what entries unfold to. -/
theorem map_unfold_eq (h : s.Under a k) {b : Arena} (hgrown : s.arena.Extends b) (base m : Nat) :
    ((s.context.grads.get? m).map fun g => b.unfold base g.toNat) = s.gradient? base m := by
  simp only [gradient?]
  cases hm : s.context.grads.get? m with
  | none => rfl
  | some g =>
    obtain ⟨-, -, -, -, i, n, rfl, hn, -⟩ := h.shaped m g hm
    exact congrArg some
      (Arena.unfold_of_extends h.regular.wellFormed hgrown (Arena.lt_size_of_node? hn))

section Step

variable (h : s.Under a k) (ha : a.Regular) (hover : r.Over a) {m : Nat} {sh : Shape}
  (hshape : ∀ node, a.node? m = some node → node.shape = sh)

include h ha hover hshape

/-- An accepted request gives to a node what it gives on a fresh context. -/
theorem gradient?_of_accepted (haccepted : r.Accepted a n) :
    (stateAfter (r.backward k s)).gradient? a.size m =
      Unfolding.accumulated a sh ((s.gradient? a.size m).toList ++
        ((stateAfter (r.backward k ⟨a, .fresh true⟩)).gradient? a.size m).toList) := by
  have hmatches : r.Matches (.ofExtends ha.wellFormed h.grown) r :=
    .refl_of_over hover fun _ _ => rfl
  have hempty : ∀ i, (Context.fresh true).grads.get? i = none := Table.get?_empty
  obtain ⟨y, E, F, p, p', hrun⟩ := (under_fresh ha k).exists_runAbreast h rfl rfl hmatches
    haccepted fun i _ => Or.inl (hempty i)
  obtain ⟨count, hok⟩ := hrun.ok
  obtain ⟨count', hok'⟩ := hrun.ok'
  have hbase := Embedding.size_le_of_extends hrun.grown.inner
  have hplace : ∀ i < a.size, E.place i = i := hrun.grown.place
  rw [hok, hok']
  change ((p'.grads.get? m).map fun g => p'.arena.unfold a.size g.toNat) =
    Unfolding.accumulated a sh ((s.gradient? a.size m).toList ++
      ((p.grads.get? m).map fun g => p.arena.unfold a.size g.toNat).toList)
  have hkept := (extends_seeded s.arena n.shape (r.seedIn k)).trans hrun.sweeping'.kept
  rw [← h.map_unfold_eq hkept]
  by_cases hlive : Plan.Live (plan ⟨a, .fresh true⟩ y n.shape (r.seedIn k) (r.wrtIn k)) m
  · have hsize : m < a.size := hrun.lt_of_reached hlive.reached
    obtain ⟨g, g', hg, hg', haccumulated⟩ := hrun.abreast.accumulated_eq hrun.within hrun.sweeping
      hrun.sweeping' (h.grown.trans hkept) hbase hplace hlive hsize (hempty m)
    obtain ⟨node, hnode⟩ := Arena.exists_node? hsize
    obtain ⟨node', hnode', hsh⟩ := hrun.ready.exists_node hlive.reached
    cases (extends_seeded a n.shape (r.seedIn k) m node hnode).symm.trans hnode'
    rw [hg, hg', ← hshape node hnode, hsh]
    exact haccumulated.symm
  · have hdead : ¬Plan.Live (plan s y n.shape (r.seedIn k) (r.wrtIn k)) m := fun hm =>
      hlive (hrun.live_of_live (fun _ _ => rfl) hm)
    rw [hrun.sweeping'.get?_dead fun x hx => Int.natCast_inj.mp hx ▸ hdead,
      hrun.sweeping.get?_dead fun x hx => Int.natCast_inj.mp hx ▸ hlive]
    change _ = Unfolding.accumulated a sh (_ ++ (((Context.fresh true).grads.get? m).map _).toList)
    rw [hempty, Option.map_none, Option.toList_none, List.append_nil,
      Unfolding.accumulated_toList]
    rfl

/-- A request adds to what a node has what it gives to it on a fresh context. -/
theorem gradient?_backward : (stateAfter (r.backward k s)).gradient? a.size m =
    Unfolding.accumulated a sh ((s.gradient? a.size m).toList ++
      ((stateAfter (r.backward k ⟨a, .fresh true⟩)).gradient? a.size m).toList) := by
  by_cases haccepted : ∃ n, r.Accepted a n
  · obtain ⟨n, haccepted⟩ := haccepted
    exact h.gradient?_of_accepted ha hover hshape haccepted
  · have hmatches : r.Matches (.ofExtends ha.wellFormed h.grown) r :=
      .refl_of_over hover fun _ _ => rfl
    obtain ⟨err, t, herror, hgrads⟩ := h.refused (hover.of_extends h.grown) fun n hn =>
      haccepted (hmatches.exists_accepted hn)
    obtain ⟨err', t', herror', hgrads'⟩ :=
      (under_fresh ha k).refused hover fun n hn => haccepted ⟨n, hn⟩
    have hgrown := (backward_keeps _ _ _).of_error herror
    have hnone : t'.gradient? a.size m = none := by
      simp only [gradient?, hgrads'.1]
      exact congrArg _ (Table.get?_empty (m : Int))
    rw [herror, herror']
    change t.gradient? a.size m = Unfolding.accumulated a sh
      ((s.gradient? a.size m).toList ++ (t'.gradient? a.size m).toList)
    rw [hnone, Option.toList_none, List.append_nil, Unfolding.accumulated_toList,
      ← h.map_unfold_eq hgrown.1.1.1 a.size m, gradient?, hgrads.1]

end Step

end Under

/-! ### Several requests -/

section Several

variable {a : Arena} {k : ArenaId} {r : Request} {rs : List Request} {m : Nat} {sh : Shape}

/-- What a request gives to a node on a fresh context. -/
def alone (a : Arena) (k : ArenaId) (m : Nat) (r : Request) : Option Unfolding :=
  (stateAfter (r.backward k ⟨a, .fresh true⟩)).gradient? a.size m

/-- A request gives something to the nodes that are live in it, if it is accepted. -/
theorem alone_isSome_iff (ha : a.Regular) (hover : r.Over a) : (alone a k m r).isSome = true ↔
    ∃ (n : Node) (y : Nat), r.Accepted a n ∧ r.output = y ∧ a.Live (AskedFor (r.wrtIn k)) y m := by
  have hfresh := under_fresh ha k
  have hempty : ∀ i, (Context.fresh true).grads.get? i = none := Table.get?_empty
  simp only [alone, gradient?, Option.isSome_map]
  by_cases haccepted : ∃ n, r.Accepted a n
  · obtain ⟨n, haccepted⟩ := haccepted
    obtain ⟨y, hy, hlt, haccepts, hready⟩ := hfresh.ready hover haccepted
    obtain ⟨p, count, hok, hsweep⟩ :=
      haccepts.backward_ok (R := Int) ⟨id, id, id, id⟩ (fun _ => 0) hy hready
    have hcomplete := (hsweep.complete count).of_extends ha.wellFormed
      (extends_seeded a n.shape (r.seedIn k)) hlt
    change r.backward k ⟨a, .fresh true⟩ = _ at hok
    rw [hok]
    constructor
    · intro hsome
      refine ⟨n, y, haccepted, hy, ?_⟩
      by_contra hdead
      have hnone := hcomplete.untouched m fun x hx => Int.natCast_inj.mp hx ▸ hdead
      exact Option.isSome_iff_ne_none.mp hsome (hnone.trans (hempty m))
    · rintro ⟨n', y', -, hy', hlive⟩
      obtain rfl := Int.natCast_inj.mp (hy.symm.trans hy')
      obtain ⟨g, hg⟩ := hcomplete.live m hlive
      exact Option.isSome_iff_exists.mpr ⟨g, hg⟩
  · obtain ⟨err, t, herror, hgrads⟩ := hfresh.refused hover fun n hn => haccepted ⟨n, hn⟩
    rw [herror]
    constructor
    · intro hsome
      change (t.context.grads.get? m).isSome = true at hsome
      rw [hgrads.1] at hsome
      exact absurd (hempty m) (Option.isSome_iff_ne_none.mp hsome)
    · rintro ⟨n, -, hn, -⟩
      exact absurd ⟨n, hn⟩ haccepted

/-- A context after requests one after the other, of which some may be refused. -/
def succession (k : ArenaId) (rs : List Request) (s : Differentiation) : Differentiation :=
  rs.foldl (fun s r => stateAfter (r.backward k s)) s

theorem under_succession (ha : a.Regular) (hover : ∀ r ∈ rs, r.Over a) :
    (succession k rs ⟨a, .fresh true⟩).Under a k := by
  induction rs using List.reverseRecOn with
  | nil => exact under_fresh ha k
  | append_singleton rs r ih =>
    have hrs := ih fun r' hr' => hover r' (List.mem_append_left _ hr')
    rw [succession, List.foldl_append]
    exact hrs.backward ((hover r (by simp)).of_extends hrs.grown)

/-- After requests a node has what the gradients accumulate to that they give to it alone. -/
theorem gradient?_succession (ha : a.Regular) (hover : ∀ r ∈ rs, r.Over a)
    (hshape : ∀ node, a.node? m = some node → node.shape = sh) :
    (succession k rs ⟨a, .fresh true⟩).gradient? a.size m =
      Unfolding.accumulated a sh (rs.filterMap (alone a k m)) := by
  induction rs using List.reverseRecOn with
  | nil => exact congrArg _ (Table.get?_empty (m : Int))
  | append_singleton rs r ih =>
    have hrs : ∀ r' ∈ rs, r'.Over a := fun r' hr' => hover r' (List.mem_append_left _ hr')
    have hstep :=
      (under_succession (k := k) ha hrs).gradient?_backward ha (hover r (by simp)) hshape
    rw [ih hrs] at hstep
    rw [succession, List.foldl_append, List.filterMap_append]
    refine hstep.trans ((Unfolding.accumulated_append_toList _ _).trans ?_)
    have hlast : [r].filterMap (alone a k m) = (alone a k m r).toList := by
      cases halone : alone a k m r <;> simp [halone]
    rw [hlast]
    rfl

end Several

end Differentiation

end TensorGraph
