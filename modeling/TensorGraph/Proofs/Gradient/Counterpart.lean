import TensorGraph.Proofs.Context.Counterpart
import TensorGraph.Proofs.Gradient.Fault
import TensorGraph.Proofs.Gradient.Succession
import TensorGraph.Proofs.Table

/-!
# Passes of counterparts

Corresponding requests to a context and to its counterpart have the same outcome: both are refused
with the same error, or both give corresponding gradients to corresponding parameters. The tables of
both contexts then list corresponding entries in the same order.
-/

namespace TensorGraph

/-- Lists in strict orders that correspond, with corresponding members, correspond entry by
entry. -/
theorem forall₂_of_pairwise {α β : Type} {r : α → α → Prop} {s : β → β → Prop} {R : α → β → Prop}
    {xs : List α} {ys : List β} (hr : ∀ {x y}, r x y → ¬r y x)
    (hR : ∀ {x y x' y'}, R x y → R x' y' → (r x x' ↔ s y y')) (hxs : xs.Pairwise r)
    (hys : ys.Pairwise s) (forth : ∀ x ∈ xs, ∃ y ∈ ys, R x y) (back : ∀ y ∈ ys, ∃ x ∈ xs, R x y) :
    List.Forall₂ R xs ys := by
  induction xs generalizing ys with
  | nil =>
    cases ys with
    | nil => exact .nil
    | cons y ys =>
      obtain ⟨x, hx, -⟩ := back y (List.mem_cons_self ..)
      cases hx
  | cons x xs ih =>
    obtain ⟨y, hy, hxy⟩ := forth x (List.mem_cons_self ..)
    cases ys with
    | nil => cases hy
    | cons z ys =>
      obtain ⟨hx, hxs⟩ := List.pairwise_cons.mp hxs
      obtain ⟨hz, hys⟩ := List.pairwise_cons.mp hys
      -- the first entry of each list corresponds to no later entry of the other
      have hzx : R x z := by
        obtain ⟨x', hx', hx'z⟩ := back z (List.mem_cons_self ..)
        rcases List.mem_cons.mp hy with rfl | hy
        · exact hxy
        · have hlt := (hR hx'z hxy).mpr (hz y hy)
          rcases List.mem_cons.mp hx' with rfl | hx'
          · exact absurd hlt (hr hlt)
          · exact absurd hlt (hr (hx x' hx'))
      refine .cons hzx (ih hxs hys (fun x' hx' => ?_) fun y' hy' => ?_)
      · obtain ⟨y', hy', hxy'⟩ := forth x' (List.mem_cons_of_mem x hx')
        refine ⟨y', List.mem_of_ne_of_mem ?_ hy', hxy'⟩
        rintro rfl
        have hself := (hR hzx hzx).mpr ((hR hzx hxy').mp (hx x' hx'))
        exact hr hself hself
      · obtain ⟨x', hx', hxy'⟩ := back y' (List.mem_cons_of_mem z hy')
        refine ⟨x', List.mem_of_ne_of_mem ?_ hx', hxy'⟩
        rintro rfl
        have hself := (hR hzx hxy').mpr (hz y' hy')
        exact hr hself hself

/-! ### Keys -/

namespace Sweeping

variable {R : Type} [CommRing R] {F : Functions R} {ρ : Nat → R} {π : Plan} {sh : Shape} {i : Nat}
  {todo rest : List Nat} {s t : Pass} {live : Std.HashSet Int}

/-- Live nodes that had no entry, as keys. -/
def newKeys (π : Plan) (live : Std.HashSet Int) (todo : List Nat) : List Int :=
  (todo.filter fun i : Nat => live.contains (i : Int) && !π.grads.contains (i : Int)).map Int.ofNat

/-- The node that is met gets an entry behind the others, if it is live and has none. -/
theorem keys_of_meet_ok (h : Sweeping F ρ π sh (i :: rest) s) (hready : π.Ready sh)
    (htodo : π.Remaining (i :: rest)) (hlive : ∀ j : Nat, (j : Int) ∈ live ↔ π.Live j)
    (hok : Pass.meet live i s = .ok () t) :
    t.grads.keys.toList = s.grads.keys.toList ++ newKeys π live [i] := by
  by_cases hi : (i : Int) ∈ live
  · have hwait := h.waiting_ne_nil hready htodo ((hlive i).mp hi)
    obtain ⟨g, k, b, d, n, m, -, -, -, -, hforward⟩ := Pass.exists_of_meet_ok hi hwait hok
    have hsame : s.grads.contains (i : Int) = π.grads.contains (i : Int) := by
      rw [Bool.eq_iff_iff, Table.contains_iff, Table.contains_iff, h.untouched_head]
    rw [Pass.grads_of_forward_ok hforward, Table.keys_insert, hsame]
    cases hold : π.grads.contains (i : Int) <;> simp [newKeys, hi, hold]
  · rw [Pass.meet_skip (Or.inr hi)] at hok
    cases hok
    simp [newKeys, hi]

/-- The sweep puts the live nodes that had no entry behind the others, from the top down. -/
theorem keys_of_sweep_ok (h : Sweeping F ρ π sh todo s) (hready : π.Ready sh)
    (htodo : π.Remaining todo) (hlive : ∀ j : Nat, (j : Int) ∈ live ↔ π.Live j)
    (hok : (todo.map Int.ofNat).forM (Pass.meet live) s = .ok () t) :
    t.grads.keys.toList = s.grads.keys.toList ++ newKeys π live todo := by
  induction todo generalizing s with
  | nil =>
    cases hok
    exact (List.append_nil _).symm
  | cons i rest ih =>
    obtain ⟨u, hmeet, hu⟩ := h.step hready htodo hlive
    have hrest := (forM_cons_of_ok (g := Pass.meet live) hmeet).symm.trans hok
    rw [ih hu htodo.tail hrest, h.keys_of_meet_ok hready htodo hlive hmeet, List.append_assoc,
      newKeys, newKeys, newKeys, ← List.map_append, ← List.filter_append, List.singleton_append]

end Sweeping

namespace Differentiation

/-- A pass puts the live nodes that had no entry behind the others, from the top down. -/
theorem Accepts.keys_of_backward_ok {s t : Differentiation} {output : Operand}
    {seed : Option Operand} {wrt : Option (List Operand)} {e : Expr} {n : Node} {y : Nat}
    {o : Outcome} (h : Accepts s output seed wrt e n) (hy : e.index = y)
    (hready : (s.plan y n.shape seed wrt).Ready n.shape)
    (hok : backward output seed wrt s = .ok o t) :
    ∃ todo live, (s.plan y n.shape seed wrt).Schedule todo ∧
      (∀ j : Nat, (j : Int) ∈ live ↔ (s.plan y n.shape seed wrt).Live j) ∧
      t.context.grads.keys.toList = s.context.grads.keys.toList ++
        Sweeping.newKeys (s.plan y n.shape seed wrt) live todo := by
  obtain ⟨targets, hasked, hrun⟩ := h.backward_eq_run hy
  obtain ⟨todo, live, hschedule, hlive, hsweep⟩ :=
    run_of_sweep (c := { s.context with arena := some e.arena }) hready rfl hasked
  have hopening : Sweeping (R := Int) ⟨id, id, id, id⟩ (fun _ => 0) (s.plan y n.shape seed wrt)
      n.shape todo _ := sweeping_opening hready fun m => (hschedule.mem m).mpr
  obtain ⟨p, hp, -⟩ := hopening.sweep hready hschedule.remaining hlive
  rw [hrun, hsweep p hp] at hok
  cases hok
  exact ⟨todo, live, hschedule, hlive,
    hopening.keys_of_sweep_ok hready hschedule.remaining hlive hp⟩

end Differentiation

/-! ### Tables and gradients after passes abreast -/

namespace Embedding

variable {E F : Embedding} {g h g' h' : Int}

/-- Corresponding nodes with corresponding gradients. -/
def PairsMatch (E : Embedding) (x y : Int × Int) : Prop := E.Matches x.1 y.1 ∧ E.Matches x.2 y.2

theorem Matches.lt_iff (hgh : E.Matches g h) (hgh' : E.Matches g' h') : g < g' ↔ h < h' := by
  obtain ⟨i, hi, rfl, rfl⟩ := hgh
  obtain ⟨j, hj, rfl, rfl⟩ := hgh'
  rw [Int.ofNat_lt, Int.ofNat_lt, place_lt_iff hi hj]

theorem forall₂_places {xs : List Nat} (hlt : ∀ i ∈ xs, i < E.inner.size) :
    List.Forall₂ E.Matches (xs.map Int.ofNat) ((xs.map E.place).map Int.ofNat) := by
  rw [List.map_map, List.forall₂_map_left_iff, List.forall₂_map_right_iff]
  exact List.forall₂_same.mpr fun i hi => matches_place (hlt i hi)

end Embedding

namespace Abreast

variable {E F : Embedding} {sh : Shape} {π π' : Plan} {base : Nat} {p p' : Pass}
  {R : Type} [CommRing R] {Φ : Functions R} {ρ : Nat → R}

section Both

variable (h : Abreast E π π' base [] F p p') (hw : π.Within E sh π')
  (hasked : ∀ i < E.inner.size, π'.asked (E.place i) → π.asked i)
  (hgrads : E.Carries E.Matches π.grads.get? π'.grads.get?)

include h hw hgrads in
/-- Corresponding nodes that are live have corresponding entries. -/
theorem entries_of_live {n : Nat} (hn : π.Live n) : ∃ k k', p.grads.get? n = some k ∧
    p'.grads.get? (E.place n : Nat) = some k' ∧ F.Matches k k' ∧ F.Matches n (E.place n : Nat) := by
  obtain ⟨-, -, k, k', -, hk, hk', -, -, hmatches⟩ := h.settled n hn List.not_mem_nil
  have hplace := Embedding.matches_place (hw.lt_size hn.reached)
  exact ⟨k, k', hk, hk', hmatches (hgrads.rel hplace), hplace.mono h.grown⟩

include h hw hasked hgrads

/-- The tables have corresponding entries afterwards, if they had before. -/
theorem carries (hsweep : Sweeping Φ ρ π sh [] p) (hsweep' : Sweeping Φ ρ π' sh [] p') :
    F.Carries F.Matches p.grads.get? p'.grads.get? := by
  have hlive : ∀ n < E.inner.size, π'.Live (E.place n) → π.Live n := fun n hn =>
    hw.live_of_place hasked hn
  constructor
  case forth =>
    intro i g hg
    by_cases hi : ∃ n : Nat, i = n ∧ π.Live n
    · obtain ⟨n, rfl, hn⟩ := hi
      obtain ⟨k, k', hk, hk', hkk', hplace⟩ := h.entries_of_live hw hgrads hn
      cases hg.symm.trans hk
      exact ⟨_, k', hplace, hkk', hk'⟩
    · rw [hsweep.get?_dead fun n hin hn => hi ⟨n, hin, hn⟩] at hg
      obtain ⟨j, k, hij, hgk, hk⟩ := hgrads.forth i g hg
      refine ⟨j, k, hij.mono h.grown, hgk.mono h.grown, ?_⟩
      obtain ⟨n, hn, rfl, rfl⟩ := hij
      rw [hsweep'.get?_dead fun m hm hlive' => hi ⟨n, rfl, hlive n hn ?_⟩]
      · exact hk
      · exact Int.natCast_inj.mp hm ▸ hlive'
  case back =>
    intro j k hk
    by_cases hj : ∃ m : Nat, j = m ∧ π'.Live m
    · obtain ⟨m, rfl, hm⟩ := hj
      obtain ⟨n, hn, rfl⟩ := (hw.reached m).mp hm.reached
      have hn := hlive n (hw.lt_size hn) hm
      obtain ⟨g, k', hg, hk', hgk', hplace⟩ := h.entries_of_live hw hgrads hn
      cases hk.symm.trans hk'
      exact ⟨_, g, hplace, hgk', hg⟩
    · rw [hsweep'.get?_dead fun m hjm hm => hj ⟨m, hjm, hm⟩] at hk
      obtain ⟨i, g, hij, hgk, hg⟩ := hgrads.back j k hk
      refine ⟨i, g, hij.mono h.grown, hgk.mono h.grown, ?_⟩
      obtain ⟨n, hn, rfl, rfl⟩ := hij
      rw [hsweep.get?_dead fun m hm hlive' => hj ⟨_, rfl, hw.live ?_⟩]
      · exact hg
      · exact Int.natCast_inj.mp hm ▸ hlive'

/-- Corresponding parameters are found in the same order, with corresponding gradients. -/
theorem found (hsweep : Sweeping Φ ρ π sh [] p) (hsweep' : Sweeping Φ ρ π' sh [] p') :
    List.Forall₂ F.PairsMatch p.found.toList p'.found.toList := by
  have hparam : ∀ n < E.inner.size, π'.arena.isParam (E.place n : Nat) = π.arena.isParam n := by
    intro n hn
    rw [← hw.inner, ← hw.outer]
    exact Embedding.isParam_place hn
  refine forall₂_of_pairwise (r := fun x z => z.1 < x.1) (s := fun x z => z.1 < x.1)
    (fun hlt hlt' => Int.lt_asymm hlt hlt') (fun hxy hxy' => hxy'.1.lt_iff hxy.1)
    hsweep.descending hsweep'.descending ?_ ?_
  · rintro ⟨i, g⟩ hmem
    obtain ⟨n, rfl, -, hn, hp, hg⟩ := (hsweep.found i g).mp hmem
    obtain ⟨k, k', hk, hk', hkk', hplace⟩ := h.entries_of_live hw hgrads hn
    cases hg.symm.trans hk
    refine ⟨(_, k'), (hsweep'.found _ _).mpr
      ⟨E.place n, rfl, List.not_mem_nil, hw.live hn, ?_, hk'⟩, hplace, hkk'⟩
    rw [hparam n (hw.lt_size hn.reached), hp]
  · rintro ⟨j, k⟩ hmem
    obtain ⟨m, rfl, -, hm, hp, hk⟩ := (hsweep'.found j k).mp hmem
    obtain ⟨n, hn, rfl⟩ := (hw.reached m).mp hm.reached
    have hlt := hw.lt_size hn
    have hn := hw.live_of_place hasked hlt hm
    obtain ⟨g, k', hg, hk', hgk', hplace⟩ := h.entries_of_live hw hgrads hn
    cases hk.symm.trans hk'
    exact ⟨(_, g), (hsweep.found _ _).mpr ⟨n, rfl, List.not_mem_nil, hn,
      (hparam n hlt).symm.trans hp, hg⟩, hplace, hgk'⟩

end Both

end Abreast

/-- Corresponding keys are new in corresponding plans. -/
theorem Plan.Within.newKeys {E : Embedding} {sh : Shape} {π π' : Plan} {todo todo' : List Nat}
    {live live' : Std.HashSet Int} (hw : π.Within E sh π')
    (hasked : ∀ i < E.inner.size, π'.asked (E.place i) → π.asked i)
    (hgrads : E.Carries E.Matches π.grads.get? π'.grads.get?) (htodo : π.Schedule todo)
    (htodo' : π'.Schedule todo') (hlive : ∀ j : Nat, (j : Int) ∈ live ↔ π.Live j)
    (hlive' : ∀ j : Nat, (j : Int) ∈ live' ↔ π'.Live j) :
    List.Forall₂ E.Matches (Sweeping.newKeys π live todo) (Sweeping.newKeys π' live' todo') := by
  have hlt : ∀ i ∈ todo, i < E.inner.size := fun i hi => hw.lt_size ((htodo.mem i).mp hi)
  rw [Sweeping.newKeys, Sweeping.newKeys, hw.schedule htodo htodo', List.filter_map]
  have hsame : ∀ i ∈ todo, ((fun i : Nat => live'.contains (i : Int) &&
      !π'.grads.contains (i : Int)) ∘ E.place) i =
        (live.contains (i : Int) && !π.grads.contains (i : Int)) := by
    intro i hi
    have hlive_eq : live'.contains (E.place i : Int) = live.contains (i : Int) := by
      rw [Bool.eq_iff_iff, Std.HashSet.contains_iff_mem, Std.HashSet.contains_iff_mem, hlive,
        hlive']
      exact ⟨hw.live_of_place hasked (hlt i hi), hw.live⟩
    have hgrads_eq : π'.grads.contains (E.place i : Int) = π.grads.contains (i : Int) := by
      have hrel := hgrads.rel (Embedding.matches_place (hlt i hi))
      rw [Bool.eq_iff_iff, Table.contains_iff, Table.contains_iff]
      generalize π.grads.get? (i : Int) = g at hrel
      generalize π'.grads.get? (E.place i : Int) = g' at hrel
      cases hrel <;> simp
    rw [Function.comp_apply, hlive_eq, hgrads_eq]
  rw [List.filter_congr hsame]
  exact Embedding.forall₂_places fun i hi => hlt i (List.mem_filter.mp hi).1

/-! ### Requests -/

/-- What a context and its counterpart differentiate in. -/
structure Differentiation.Counterpart (E : Embedding) (k : ArenaId) (s t : Differentiation) :
    Prop where
  inner : E.inner = s.arena
  outer : E.outer = t.arena
  context : s.context.Counterpart E k t.context

/-- The entries of a counterpart have the shapes of their nodes, too. -/
theorem Context.Counterpart.shaped' {E : Embedding} {k : ArenaId} {c d : Context}
    (h : c.Counterpart E k d) : E.outer.Shaped d.grads := by
  intro j g' hg'
  obtain ⟨i, g, hij, hgg', hg⟩ := h.grads.back j g' hg'
  obtain ⟨n, node, rfl, hn, hhas⟩ := h.shaped i g hg
  obtain ⟨m, hm, heq, rfl⟩ := hij
  obtain rfl := Int.natCast_inj.mp heq
  exact ⟨_, _, rfl, E.node hn, hgg'.has hhas⟩

/-- The tables list corresponding entries. -/
theorem Context.Counterpart.gradients {E : Embedding} {k : ArenaId} {c d : Context}
    (h : c.Counterpart E k d) : List.Forall₂ E.PairsMatch c.grads.toList d.grads.toList := by
  refine List.rel_filterMap (fun i j hij => ?_) h.keys
  have hrel := h.grads.rel hij
  generalize c.grads.get? i = g at hrel
  generalize d.grads.get? j = g' at hrel
  cases hrel with
  | none => exact .none
  | some hgg' => exact .some ⟨hij, hgg'⟩

namespace Request

open Differentiation

variable {E : Embedding} {k : ArenaId} {r r' : Request} {c d : Context} {n : Node}

/-- Corresponding requests that are accepted give corresponding gradients. -/
theorem backward_accepted (hregular : E.inner.Regular) (hregular' : E.outer.Regular)
    (h : c.Counterpart E k d) (henabled : c.requiresGrad = true) (hmatches : r.Matches E r')
    (haccepted : r.Accepted E.inner n) :
    ∃ F, E.Extends F ∧ Agree (fun o o' => List.Forall₂ F.PairsMatch o.gradients o'.gradients)
      (Counterpart F k) (r.backward k ⟨E.inner, c⟩) (r'.backward k ⟨E.outer, d⟩) := by
  have hunder : Under E.inner k ⟨E.inner, c⟩ :=
    ⟨hregular, Arena.Extends.refl _, henabled, h.bound, h.shaped⟩
  have hunder' : Under E.outer k ⟨E.outer, d⟩ :=
    ⟨hregular', Arena.Extends.refl _, h.requiresGrad.trans henabled, h.arena ▸ h.bound, h.shaped'⟩
  obtain ⟨y, F, G, p, p', hrun⟩ := hunder.exists_runAbreast hunder' rfl rfl hmatches haccepted
    fun m hm => Or.inr (h.grads.rel (Embedding.matches_place hm))
  obtain ⟨count, hok⟩ := hrun.ok
  obtain ⟨count', hok'⟩ := hrun.ok'
  have hEG := hrun.grown.trans hrun.abreast.grown
  have hgrads := h.grads.mono hrun.grown fun _ _ hgh => hgh.mono hrun.grown
  obtain ⟨todo, live, htodo, hlive, hkeys⟩ :=
    hrun.accepts.keys_of_backward_ok hrun.output hrun.ready hok
  obtain ⟨todo', live', htodo', hlive', hkeys'⟩ :=
    hrun.accepts'.keys_of_backward_ok hrun.output' hrun.ready' hok'
  have hnew := hrun.within.newKeys hrun.asked hgrads htodo htodo' hlive hlive'
  rw [hok, hok']
  refine ⟨G, hEG, .ok (hrun.abreast.found hrun.within hrun.asked hgrads hrun.sweeping
    hrun.sweeping') ⟨hrun.abreast.shadows.inner, hrun.abreast.shadows.outer, ?_⟩⟩
  exact
    { (h.mono hEG).bind with
      grads := hrun.abreast.carries hrun.within hrun.asked hgrads hrun.sweeping hrun.sweeping'
      keys := by
        dsimp only at hkeys hkeys' ⊢
        rw [hkeys, hkeys']
        exact List.rel_append (Embedding.forall₂_mono hEG h.keys)
          (Embedding.forall₂_mono hrun.abreast.grown hnew)
      shaped := by
        rw [hrun.abreast.shadows.inner]
        exact hrun.sweeping.shaped hrun.ready (h.shaped.of_extends (extends_seeded _ _ _)) }

/-- Corresponding requests that have a fault are refused alike. -/
theorem backward_faulty (h : c.Counterpart E k d) (henabled : c.requiresGrad = true)
    (hmatches : r.Matches E r') (hno : ∀ n, ¬r.Accepted E.inner n) :
    ∃ F, E.Extends F ∧ ∃ err s t, r.backward k ⟨E.inner, c⟩ = .error err s ∧
      r'.backward k ⟨E.outer, d⟩ = .error err t ∧ Counterpart F k s t := by
  have henabled' := h.requiresGrad.trans henabled
  have hbound' : ∀ b, d.arena = some b → b = k := h.arena ▸ h.bound
  obtain ⟨n, hn, hn'⟩ := Matches.exists_at? hmatches.output
  have hseed' := hmatches.seedFault?_eq
  cases hseed : r.seedFault? E.inner with
  | some err =>
    refine ⟨E, .refl E, err, _, _, backward_of_seedFault henabled h.bound hseed,
      backward_of_seedFault henabled' hbound' (hseed'.trans hseed), rfl, rfl, h.bind⟩
  | none =>
    have hwrt' := hmatches.wrtFault?_eq
    cases hwrt : r.wrtFault? E.inner with
    | none => exact absurd (accepted_of_faultless hmatches.inner_over hn hseed hwrt) (hno n)
    | some err =>
      obtain ⟨F, hEF, hF, hF', -⟩ := exists_seeded (hmatches.seedsMatch (k := k)) n.shape
      exact ⟨F, hEF, err, _, _,
        backward_of_wrtFault hmatches.inner_over henabled h.bound hn hseed hwrt,
        backward_of_wrtFault hmatches.outer_over henabled' hbound' hn' (hseed'.trans hseed)
          (hwrt'.trans hwrt), hF, hF', (h.mono hEF).bind⟩

/-- Corresponding requests to a context and its counterpart have one outcome. -/
theorem backward_agree (hregular : E.inner.Regular) (hregular' : E.outer.Regular)
    (h : c.Counterpart E k d) (hmatches : r.Matches E r') :
    ∃ F, E.Extends F ∧ Agree (fun o o' => List.Forall₂ F.PairsMatch o.gradients o'.gradients)
      (Counterpart F k) (r.backward k ⟨E.inner, c⟩) (r'.backward k ⟨E.outer, d⟩) := by
  cases henabled : c.requiresGrad with
  | false =>
    refine ⟨E, .refl E, ?_⟩
    rw [Request.backward, Request.backward, backward_disabled _ _ _ henabled,
      backward_disabled _ _ _ (h.requiresGrad.trans henabled)]
    exact .error _ ⟨rfl, rfl, h⟩
  | true =>
    by_cases haccepted : ∃ n, r.Accepted E.inner n
    · obtain ⟨n, haccepted⟩ := haccepted
      exact backward_accepted hregular hregular' h henabled hmatches haccepted
    · obtain ⟨F, hEF, err, s, t, hs, ht, hst⟩ :=
        backward_faulty h henabled hmatches fun n hn => haccepted ⟨n, hn⟩
      refine ⟨F, hEF, ?_⟩
      rw [hs, ht]
      exact .error err hst

end Request

end TensorGraph
