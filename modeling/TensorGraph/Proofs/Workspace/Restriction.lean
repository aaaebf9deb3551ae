import TensorGraph.Proofs.Gradient.Request
import TensorGraph.Proofs.Workspace.Gradients

/-!
# Restricting what is asked for

A pass that is asked for some parameters only leaves nodes out that lead to none of them. What it
gives to those it is asked for is what a pass gives that is asked for all, and it builds no more.
-/

namespace TensorGraph

namespace Differentiation

/-- A context that has no entries has none of a wrong shape. -/
theorem Accepts.ready_of_empty {s : Differentiation} {output : Operand} {seed : Option Operand}
    {wrt : Option (List Operand)} {e : Expr} {n : Node} {y : Nat}
    (h : Accepts s output seed wrt e n) (hy : e.index = y)
    (hnatural : ∀ o, seed = some o → o.Natural) (hregular : s.arena.Regular)
    (hempty : ∀ i, s.context.grads.get? i = none) :
    (s.plan y n.shape seed wrt).Ready n.shape := by
  refine h.ready hy hnatural hregular fun i g hg => ?_
  rw [hempty] at hg
  cases hg

variable {a : Arena} {k : ArenaId} {y : Nat} {n : Node} {seed : Option Operand} {W : List Nat}

/-- Handles of parameters. -/
def handles (k : ArenaId) (W : List Nat) : List Operand := W.map fun p : Nat => .expr ⟨k, p⟩

theorem askedFor_handles {p : Nat} : AskedFor (some (handles k W)) p ↔ p ∈ W := by
  constructor
  · intro hasked
    obtain ⟨e, he, hindex⟩ := hasked _ rfl
    obtain ⟨q, hq, hqe⟩ := List.mem_map.mp he
    cases hqe
    rwa [← Int.natCast_inj.mp hindex]
  · rintro hp ps ⟨⟩
    exact ⟨⟨k, p⟩, List.mem_map_of_mem hp, rfl⟩

/-- A fresh context accepts parameters of the arena. -/
theorem accepts_handles (hn : a.node? y = some n) (hfits : SeedFits a k n.shape seed)
    (hW : ∀ p ∈ W, a.isParam p = true) : Accepts ⟨a, .fresh true⟩ (.expr ⟨k, y⟩) seed
      (some (handles k W)) ⟨k, y⟩ n := by
  refine ⟨rfl, ⟨rfl, nofun⟩, ?_, hfits, ?_⟩
  · rw [Arena.at?_ofNat, hn]
  · rintro ps ⟨⟩ o ho
    obtain ⟨p, hp, rfl⟩ := List.mem_map.mp ho
    obtain ⟨m, hm, hkind⟩ := Arena.exists_of_isParam (hW p hp)
    refine ⟨p, m, rfl, ?_, hkind⟩
    rw [Arena.at?_ofNat, extends_seeded a n.shape seed p m hm]

/-- A seed that fits corresponds to itself. -/
theorem seedsMatch_refl {ha : a.WellFormed} {sh : Shape} (hseed : ∀ o, seed = some o → o.Natural)
    (hfits : SeedFits a k sh seed) :
    SeedsMatch (.ofExtends ha (Arena.Extends.refl a)) k seed seed := by
  cases seed with
  | none => exact .none
  | some o =>
    obtain ⟨g, m, rfl, hm, -⟩ := hfits o rfl
    obtain ⟨i, rfl⟩ := Int.eq_ofNat_of_zero_le (hseed _ rfl _ rfl)
    rw [Arena.at?_ofNat] at hm
    exact .some ⟨i, i, rfl, rfl, Embedding.matches_place (Arena.lt_size_of_node? hm)⟩

/-- Both passes are carried out, and what they give to the parameters asked for unfolds to the
same. -/
theorem backward_restricted (ha : a.Regular) (hn : a.node? y = some n)
    (hseed : ∀ o, seed = some o → o.Natural) (hfits : SeedFits a k n.shape seed)
    (hW : ∀ p ∈ W, a.isParam p = true) :
    ∃ o₁ s₁ o₂ s₂,
      backward (.expr ⟨k, y⟩) seed (some (handles k W)) ⟨a, .fresh true⟩ = .ok o₁ s₁ ∧
      backward (.expr ⟨k, y⟩) seed none ⟨a, .fresh true⟩ = .ok o₂ s₂ ∧
      (∀ p ∈ W, Reaches a.operands y p → ∃ m₁ m₂ : Nat,
        ((p : Int), (m₁ : Int)) ∈ o₁.gradients ∧ ((p : Int), (m₂ : Int)) ∈ o₂.gradients ∧
        s₁.arena.unfold a.size m₁ = s₂.arena.unfold a.size m₂) ∧
      s₁.arena.size ≤ s₂.arena.size := by
  have hempty : ∀ i, (Context.fresh true).grads.get? i = none := Table.get?_empty
  have haccepts := accepts_handles hn hfits hW
  have haccepts' : Accepts ⟨a, .fresh true⟩ (.expr ⟨k, y⟩) seed none ⟨k, y⟩ n :=
    ⟨rfl, ⟨rfl, nofun⟩, haccepts.node, hfits, nofun⟩
  have hready := haccepts.ready_of_empty rfl hseed ha hempty
  have hready' := haccepts'.ready_of_empty rfl hseed ha hempty
  have hy := Arena.lt_size_of_node? hn
  obtain ⟨E, hgrown, hw⟩ := exists_within (E := .ofExtends ha.wellFormed (Arena.Extends.refl a)) rfl
    rfl hy (seedsMatch_refl hseed hfits) hready hready' (fun _ _ p _ _ => askedFor_none _)
    fun m _ => Or.inl (hempty m)
  have hbase := Embedding.size_le_of_extends hgrown.inner
  have hplace : ∀ i < a.size, E.place i = i := hgrown.place
  obtain ⟨F, p, p', count, count', hok, hok', hsweep, hsweep', habreast⟩ :=
    haccepts.backward_abreast (R := Int) ⟨id, id, id, id⟩ (fun _ => 0) haccepts' rfl rfl hw hbase
  refine ⟨_, _, _, _, hok, hok', fun q hq hr => ?_, ?_⟩
  · have hlive : Plan.Live (plan ⟨a, .fresh true⟩ y n.shape seed (some (handles k W))) q :=
      (Arena.live_of_extends ha.wellFormed (extends_seeded a n.shape seed) hy).mpr
        (Arena.live_of_isParam.mpr ⟨hr, hW q hq, askedFor_handles.mpr hq⟩).1
    have hparam := hW q hq
    have hlt : q < a.size := by
      obtain ⟨m, hm, -⟩ := Arena.exists_of_isParam hparam
      exact Arena.lt_size_of_node? hm
    rw [← Arena.isParam_of_extends (extends_seeded a n.shape seed) hlt] at hparam
    obtain ⟨m, m', hm, hm', hunfold⟩ :=
      habreast.unfold_eq hbase hplace hlive (hempty _) (hempty _)
    have hlive' := hw.live hlive
    rw [hplace q hlt] at hm' hlive'
    exact ⟨m, m', (hsweep.found _ _).mpr ⟨q, rfl, by simp, hlive, hparam, hm⟩,
      (hsweep'.found _ _).mpr ⟨q, rfl, by simp, hlive', hparam, hm'⟩, hunfold.symm⟩
  · rw [← habreast.shadows.inner, ← habreast.shadows.outer]
    exact F.size_le

/-- A seed that does not fit is refused before it matters what is asked for. -/
theorem backward_refuses_seed (hn : a.node? y = some n) (hfits : ¬SeedFits a k n.shape seed) :
    ∃ err s, ∀ wrt, backward (.expr ⟨k, y⟩) seed wrt ⟨a, .fresh true⟩ = .error err s := by
  have hat : a.at? y = some n := by rw [Arena.at?_ofNat, hn]
  have hbind : bind (.expr ⟨k, y⟩) ⟨a, .fresh true⟩ =
      .ok ⟨k, y⟩ ⟨a, { Context.fresh true with arena := some k }⟩ := rfl
  rcases seedFor_cases (s := ⟨a, { Context.fresh true with arena := some k }⟩) rfl hat seed with
    ⟨hyes, -⟩ | ⟨-, err, s, herror⟩
  · exact absurd hyes hfits
  · refine ⟨err, s, fun wrt => ?_⟩
    rw [backward_eq (s := ⟨a, .fresh true⟩) _ seed wrt rfl, bind_of_ok hbind]
    exact bind_of_error herror

end Differentiation

namespace Workspace

open Differentiation

/-- After any calls that build an arena with its operators: asked for some parameters, a pass of a
fresh context gives to those that its output reaches what the pass of a fresh context gives that is
asked for all, and it appends no more nodes. Seeds that do not fit are refused by both alike. -/
theorem restriction_keeps_gradients {k : ArenaId} {calls : List Call}
    (hcalls : ∀ call ∈ calls, call.RegularIn k) {c d : ContextId}
    (hc : c < (afterAll calls).evaluators.size) (hd : d < (afterAll calls).evaluators.size)
    (hfresh : ((afterAll calls).evaluator c).context = .fresh true)
    (hfresh' : ((afterAll calls).evaluator d).context = .fresh true) {y : Nat} {n : Node}
    (hn : ((afterAll calls).arena k).node? y = some n) {seed : Option Operand}
    (hseed : ∀ o, seed = some o → o.Natural) {W : List Nat}
    (hW : ∀ p ∈ W, ((afterAll calls).arena k).isParam p = true) :
    (SeedFits ((afterAll calls).arena k) k n.shape seed → ∃ o₁ w₁ o₂ w₂,
      differentiate c (.expr ⟨k, y⟩) seed (some (handles k W)) (afterAll calls) = .ok o₁ w₁ ∧
      differentiate d (.expr ⟨k, y⟩) seed none (afterAll calls) = .ok o₂ w₂ ∧
      (∀ p ∈ W, Reaches ((afterAll calls).arena k).operands y p → ∃ m₁ m₂ : Nat,
        ((p : Int), (m₁ : Int)) ∈ o₁.gradients ∧ ((p : Int), (m₂ : Int)) ∈ o₂.gradients ∧
        (w₁.arena k).unfold ((afterAll calls).arena k).size m₁ =
          (w₂.arena k).unfold ((afterAll calls).arena k).size m₂) ∧
      (w₁.arena k).size ≤ (w₂.arena k).size) ∧
    (¬SeedFits ((afterAll calls).arena k) k n.shape seed → ∃ err w₁ w₂,
      differentiate c (.expr ⟨k, y⟩) seed (some (handles k W)) (afterAll calls) = .error err w₁ ∧
      differentiate d (.expr ⟨k, y⟩) seed none (afterAll calls) = .error err w₂) := by
  have hregular := (afterAll_tallied (R := Int) ⟨id, id, id, id⟩ (fun _ => 0) hcalls c).regular
  have hk := arena_lt_of_node? hn
  have hstate : (afterAll calls).differentiation c k = ⟨(afterAll calls).arena k, .fresh true⟩ :=
    congrArg _ hfresh
  have hstate' : (afterAll calls).differentiation d k = ⟨(afterAll calls).arena k, .fresh true⟩ :=
    congrArg _ hfresh'
  constructor
  · intro hfits
    obtain ⟨o₁, s₁, o₂, s₂, hok, hok', hunfold, hsize⟩ :=
      backward_restricted hregular hn hseed hfits hW
    rw [← hstate] at hok
    rw [← hstate'] at hok'
    obtain ⟨w₁, hw₁, rfl⟩ := differentiate_of_ok (e := ⟨k, y⟩) hc hk hok
    obtain ⟨w₂, hw₂, rfl⟩ := differentiate_of_ok (e := ⟨k, y⟩) hd hk hok'
    exact ⟨o₁, w₁, o₂, w₂, hw₁, hw₂, hunfold, hsize⟩
  · intro hfits
    obtain ⟨err, s, herror⟩ := backward_refuses_seed hn hfits
    obtain ⟨w₁, hw₁⟩ := differentiating_of_error ((congrArg _ hstate).trans (herror _))
    obtain ⟨w₂, hw₂⟩ := differentiating_of_error ((congrArg _ hstate').trans (herror none))
    exact ⟨err, w₁, w₂, hw₁, hw₂⟩

/-- A product of parameters, to which one of them is added, and two contexts. -/
def productPlus : List Call :=
  [.newContext none true, .newContext none true, .param 0 (.shape ⟨[]⟩) none,
    .param 0 (.shape ⟨[]⟩) none, .binary .mul ⟨0, 0⟩ (.expr ⟨0, (1 : Nat)⟩),
    .binary .add ⟨0, 2⟩ (.expr ⟨0, (1 : Nat)⟩)]

/-- The parameter that was added is asked for twice. -/
theorem restriction_keeps_gradients_productPlus : ∃ o₁ w₁ o₂ w₂,
    differentiate 0 (.expr ⟨0, (3 : Nat)⟩) none (some (handles 0 [1, 1])) (afterAll productPlus) =
      .ok o₁ w₁ ∧
    differentiate 1 (.expr ⟨0, (3 : Nat)⟩) none none (afterAll productPlus) = .ok o₂ w₂ ∧
    (∃ m₁ m₂ : Nat, (1, (m₁ : Int)) ∈ o₁.gradients ∧ (1, (m₂ : Int)) ∈ o₂.gradients ∧
      (w₁.arena 0).unfold 4 m₁ = (w₂.arena 0).unfold 4 m₂) ∧
    (w₁.arena 0).size ≤ (w₂.arena 0).size := by
  have hcalls : ∀ call ∈ productPlus, call.RegularIn 0 := by simp [productPlus, Call.RegularIn]
  have hseed : ∀ o : Operand, none = some o → o.Natural := by simp
  have hseedFits : SeedFits ((afterAll productPlus).arena 0) 0 ⟨[]⟩ none := by simp [SeedFits]
  obtain ⟨hfits, -⟩ := restriction_keeps_gradients hcalls (c := 0) (d := 1) (y := 3)
    (n := ⟨.binary .add 2 1, ⟨[]⟩, none⟩) (W := [1, 1]) (by decide) (by decide) rfl rfl rfl hseed
    (by decide)
  obtain ⟨o₁, w₁, o₂, w₂, hok, hok', hunfold, hsize⟩ := hfits hseedFits
  have hr : Reaches ((afterAll productPlus).arena 0).operands 3 1 :=
    .step (List.mem_of_mem_tail (List.mem_singleton_self 1)) (.refl 1)
  exact ⟨o₁, w₁, o₂, w₂, hok, hok', hunfold 1 (List.mem_cons_self ..) hr, hsize⟩

end Workspace

end TensorGraph
