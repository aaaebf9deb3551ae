import Mathlib.Algebra.BigOperators.Group.Finset.Piecewise
import TensorGraph.Proofs.Gradient.Building
import TensorGraph.Proofs.Gradient.Growth

/-!
# Meeting a node

Contributions that wait at a node have a weight, the sum of their values. Along any function of the
nodes the weights of a pass have a flow. Meeting a node takes its weight out and sends it on to the
operands, so the flow along tangents does not change.
-/

namespace TensorGraph

namespace Pass

/-- Contributions that have come to a node, the latest first. -/
def waiting (s : Pass) (m : Nat) : List Int := s.pending.getD (m : Int) []

variable {R : Type} [CommRing R] (F : Functions R) (ρ : Nat → R)

def weight (s : Pass) (m : Nat) : R := s.arena.total F ρ (s.waiting m)

/-- The weights of the nodes below a bound, each times its factor. -/
def flow (s : Pass) (bound : Nat) (d : Nat → R) : R :=
  ∑ m ∈ Finset.range bound, s.weight F ρ m * d m

/-- The arena is built by operators, and contributions have the shape of the pass. -/
structure Valid (sh : Shape) (s : Pass) : Prop where
  regular : s.arena.Regular
  has : ∀ m, ∀ g ∈ s.waiting m, s.arena.Has sh g

variable {F ρ} {sh : Shape} {s t : Pass}

/-- A building step of a pass changes only the arena. -/
theorem building_of_ok {α : Type} {x : Build α} {v : α} {b : Arena} (h : x s.arena = .ok v b) :
    building x s = .ok v { s with arena := b } := by
  obtain ⟨arena, grads, pending, found⟩ := s
  simp only [building]
  rw [h]

/-! ### Sending -/

/-- Growing the arena changes neither what waits nor its weight. -/
theorem Valid.grow {b : Arena} (h : s.Valid sh) (hab : s.arena.Extends b) (hb : b.Regular) :
    Valid sh { s with arena := b } :=
  ⟨hb, fun m g hg => (h.has m g hg).of_extends hab⟩

theorem Valid.weight_grow {b : Arena} (h : s.Valid sh) (hab : s.arena.Extends b) (hb : b.Regular)
    (m : Nat) : weight F ρ { s with arena := b } m = s.weight F ρ m :=
  Arena.total_of_extends h.regular hb hab (h.has m)

theorem waiting_send (s : Pass) (i m : Nat) (g : Int) :
    waiting { s with pending := s.pending.insert i (g :: s.pending.getD i []) } m =
      if m = i then g :: s.waiting i else s.waiting m := by
  simp only [waiting, Std.HashMap.getD_insert]
  by_cases h : m = i
  · simp [h]
  · simp [h, Ne.symm h]

theorem waiting_take (s : Pass) (i m : Nat) :
    waiting { s with pending := s.pending.erase (i : Int) } m =
      if m = i then [] else s.waiting m := by
  simp only [waiting, Std.HashMap.getD_erase]
  by_cases h : m = i
  · simp [h]
  · simp [h, Ne.symm h]

/-- What sending to the operands does: the arena grows, and more waits at the live ones. -/
structure Sent (F : Functions R) (ρ : Nat → R) (sh : Shape) (live : Std.HashSet Int)
    (targets : List Nat) (gain : (Nat → R) → R) (s t : Pass) : Prop where
  kept : s.arena.Extends t.arena
  valid : t.Valid sh
  grads : t.grads = s.grads
  found : t.found = s.found
  waiting : ∀ m, t.waiting m = [] ↔ s.waiting m = [] ∧ ((m : Int) ∈ live → m ∉ targets)
  flow : ∀ bound d, (∀ x ∈ targets, x < bound) → (∀ x ∈ targets, (x : Int) ∉ live → d x = 0) →
    t.flow F ρ bound d = s.flow F ρ bound d + gain d

theorem Sent.refl (live : Std.HashSet Int) (h : s.Valid sh) :
    Sent F ρ sh live [] (fun _ => 0) s s where
  kept := Arena.Extends.refl s.arena
  valid := h
  grads := rfl
  found := rfl
  waiting m := by simp
  flow bound d _ _ := by rw [add_zero]

theorem Sent.trans {live : Std.HashSet Int} {xs ys : List Nat} {gain gain' : (Nat → R) → R}
    {u : Pass} (hst : Sent F ρ sh live xs gain s t) (htu : Sent F ρ sh live ys gain' t u) :
    Sent F ρ sh live (xs ++ ys) (fun d => gain d + gain' d) s u where
  kept := hst.kept.trans htu.kept
  valid := htu.valid
  grads := htu.grads.trans hst.grads
  found := htu.found.trans hst.found
  waiting m := by
    rw [htu.waiting, hst.waiting, List.mem_append]
    tauto
  flow bound d hbound hzero := by
    rw [htu.flow bound d (fun x hx => hbound x (List.mem_append_right _ hx))
        fun x hx => hzero x (List.mem_append_right _ hx),
      hst.flow bound d (fun x hx => hbound x (List.mem_append_left _ hx))
        fun x hx => hzero x (List.mem_append_left _ hx), add_assoc]

/-- Sends what is built to a target, if that is live. -/
def sendOne (live : Std.HashSet Int) (target : Nat) (build : Build Int) : Passing Unit :=
  if (target : Int) ∈ live then do
    let h ← building build
    send target h
  else pure ()

def sendEach {β : Type} (live : Std.HashSet Int) (target : β → Nat) (build : β → Build Int)
    (xs : List β) : Passing Unit :=
  xs.forM fun x => sendOne live (target x) (build x)

theorem sendByRules_eq (live : Std.HashSet Int) (i g : Int) (rules : List (Nat × Recipe)) :
    sendByRules live i g rules =
      sendEach live Prod.fst (fun rule => rule.2.carryOut Arena.algebra g i Int.ofNat) rules := rfl

/-- What a rule builds for a live operand waits there. -/
theorem sendByRules_cons {live : Std.HashSet Int} {i g h : Int} {x : Nat} {recipe : Recipe}
    {rules : List (Nat × Recipe)} {b : Arena} (hx : (x : Int) ∈ live)
    (hbuild : recipe.carryOut Arena.algebra g i Int.ofNat s.arena = .ok h b) :
    sendByRules live i g ((x, recipe) :: rules) s = sendByRules live i g rules
      ⟨b, s.grads, s.pending.insert x (h :: s.pending.getD x []), s.found⟩ := by
  have hsend : sendOne live x (recipe.carryOut Arena.algebra g i Int.ofNat) s =
      .ok () ⟨b, s.grads, s.pending.insert x (h :: s.pending.getD x []), s.found⟩ := by
    rw [sendOne, if_pos hx]
    exact bind_of_ok (building_of_ok hbuild)
  exact bind_of_ok hsend

/-- A rule that cannot be carried out ends the pass. -/
theorem sendByRules_error {live : Std.HashSet Int} {i g : Int} {x : Nat} {recipe : Recipe}
    {rules : List (Nat × Recipe)} {err : Error} {b : Arena} (hx : (x : Int) ∈ live)
    (hbuild : recipe.carryOut Arena.algebra g i Int.ofNat s.arena = .error err b) :
    sendByRules live i g ((x, recipe) :: rules) s = .error err { s with arena := b } := by
  have hsend : sendOne live x (recipe.carryOut Arena.algebra g i Int.ofNat) s =
      .error err { s with arena := b } := by
    rw [sendOne, if_pos hx]
    refine bind_of_error ?_
    rw [building, hbuild]
  exact bind_of_error hsend

theorem sendUnchanged_eq (live : Std.HashSet Int) (g : Int) (operands : List Nat) :
    sendUnchanged live g operands = sendEach live id (fun _ => pure g) operands := rfl

/-- One contribution more waits at a live node, and its value flows there. -/
theorem Valid.send {g : Int} {v : R} (h : s.Valid sh) (hg : s.arena.Denotes F ρ sh g v)
    {live : Std.HashSet Int} {i : Nat} (hi : (i : Int) ∈ live) :
    ∃ t, Pass.send i g s = .ok () t ∧ Sent F ρ sh live [i] (fun d => v * d i) s t := by
  have hwait := waiting_send s i
  refine ⟨{ s with pending := s.pending.insert i (g :: s.pending.getD i []) }, rfl,
    Arena.Extends.refl s.arena, ⟨h.regular, ?_⟩, rfl, rfl, ?_, ?_⟩
  · intro m k hk
    rw [hwait] at hk
    split at hk
    · rcases List.mem_cons.mp hk with rfl | hk
      · exact hg.1
      · exact h.has i k hk
    · exact h.has m k hk
  · intro m
    rw [hwait]
    by_cases hm : m = i
    · simp [hm, hi]
    · simp [hm]
  · intro bound d hbound _
    have hi : i ∈ Finset.range bound := Finset.mem_range.mpr (hbound i (List.mem_singleton_self i))
    have hweight : ∀ m, weight F ρ
        { s with pending := s.pending.insert i (g :: s.pending.getD i []) } m =
          s.weight F ρ m + if m = i then v else 0 := by
      intro m
      rw [weight, hwait]
      split
      · rename_i hm
        rw [Arena.total_cons, hg.2, add_comm, hm]
        rfl
      · rw [add_zero]
        rfl
    simp only [flow, hweight, add_mul, Finset.sum_add_distrib, ite_mul, zero_mul,
      Finset.sum_ite_eq', hi, if_true]

/-- Growing the arena sends nothing. -/
theorem Valid.sent_grow {b : Arena} (h : s.Valid sh) (live : Std.HashSet Int)
    (hab : s.arena.Extends b) (hb : b.Regular) :
    Sent F ρ sh live [] (fun _ => 0) s { s with arena := b } where
  kept := hab
  valid := h.grow hab hb
  grads := rfl
  found := rfl
  waiting m := by
    simp only [List.not_mem_nil, not_false_eq_true, implies_true, and_true]
    rfl
  flow bound d _ _ := by
    simp only [Pass.flow, h.weight_grow hab hb, add_zero]

theorem Valid.sendOne {build : Build Int} {v : R} (h : s.Valid sh) (live : Std.HashSet Int)
    (x : Nat)
    (hbuild : Arena.Yields F ρ build s.arena sh v) :
    ∃ t, Pass.sendOne live x build s = .ok () t ∧
      Sent F ρ sh live [x] (fun d => v * d x) s t := by
  simp only [Pass.sendOne]
  by_cases hx : (x : Int) ∈ live
  · obtain ⟨g, b, hok, hab, hb, hg⟩ := hbuild
    obtain ⟨t, hsend, hsent⟩ := (h.grow hab hb).send hg hx
    refine ⟨t, ?_, ?_⟩
    · rw [if_pos hx, bind_of_ok (building_of_ok hok)]
      exact hsend
    · have hall := (h.sent_grow live hab hb).trans hsent
      simpa only [List.nil_append, zero_add] using hall
  · refine ⟨s, ?_, Arena.Extends.refl s.arena, h, rfl, rfl, ?_, ?_⟩
    · rw [if_neg hx]
      rfl
    · intro m
      by_cases hm : m = x
      · simp [hm, hx]
      · simp [hm]
    · intro bound d _ hzero
      rw [hzero x (List.mem_singleton_self x) hx, mul_zero, add_zero]

/-- Items can be sent when what is sent for each of them can be built. -/
theorem Valid.sendEach {β : Type} (h : s.Valid sh) (live : Std.HashSet Int) (target : β → Nat)
    {build : β → Build Int} (value : β → R) (xs : List β)
    (hbuild : ∀ x ∈ xs, ∀ b, s.arena.Extends b → b.Regular →
      Arena.Yields F ρ (build x) b sh (value x)) :
    ∃ t, Pass.sendEach live target build xs s = .ok () t ∧
      Sent F ρ sh live (xs.map target) (fun d => (xs.map fun x => value x * d (target x)).sum)
        s t := by
  induction xs generalizing s with
  | nil => exact ⟨s, rfl, Sent.refl live h⟩
  | cons x xs ih =>
    have hx := hbuild x (List.mem_cons_self ..) s.arena (Arena.Extends.refl s.arena) h.regular
    obtain ⟨u, hok, hsent⟩ := h.sendOne live (target x) hx
    obtain ⟨t, hrest, hsent'⟩ := ih hsent.valid fun y hy b hub hb =>
      hbuild y (List.mem_cons_of_mem x hy) b (hsent.kept.trans hub) hb
    have hall := hsent.trans hsent'
    simp only [List.map_cons, List.sum_cons]
    exact ⟨t, (forM_cons_of_ok (g := fun x => Pass.sendOne live (target x) (build x)) hok).trans
      hrest, hall⟩

/-! ### Meeting -/

end Pass

/-- The value of the entry that a table has for a node, 0 without one. -/
def Arena.gradient {R : Type} [CommRing R] (F : Functions R) (ρ : Nat → R) (a : Arena)
    (grads : Table Int Int) (i : Int) : R :=
  match grads.get? i with
  | none => 0
  | some g => a.value F ρ g.toNat

/-- An entry that is there keeps its value while the arena grows. -/
theorem Arena.gradient_of_extends {R : Type} [CommRing R] {F : Functions R} {ρ : Nat → R}
    {a b : Arena} (ha : a.Regular) (hb : b.Regular) (hab : a.Extends b) {grads : Table Int Int}
    {i : Int} (h : ∀ g, grads.get? i = some g → ∃ sh, a.Has sh g) :
    b.gradient F ρ grads i = a.gradient F ρ grads i := by
  simp only [gradient]
  cases hi : grads.get? i with
  | none => rfl
  | some g =>
    obtain ⟨sh, hg⟩ := h g hi
    exact (hg.denotes.of_extends ha hb hab).2

namespace Pass

variable {R : Type} [CommRing R] {F : Functions R} {ρ : Nat → R} {sh : Shape} {s t : Pass}

/-- The first gradient of a node is its entry in the table. -/
theorem total_of_none {i g : Int} (h : s.grads.get? i = none) :
    Pass.total i g s = .ok g { s with grads := s.grads.insert i g } := by
  have hprevious : previous i s = .ok none s := by rw [previous, h]
  rw [Pass.total, bind_of_ok hprevious]
  rfl

/-- The gradient of a pass is added to the entry of the table. -/
theorem Valid.total {g : Int} {v : R} (h : s.Valid sh) (i : Int)
    (hold : ∀ old, s.grads.get? i = some old → s.arena.Has sh old)
    (hg : s.arena.Denotes F ρ sh g v) :
    ∃ k b, Pass.total i g s = .ok k { s with arena := b, grads := s.grads.insert i k } ∧
      s.arena.Extends b ∧ b.Regular ∧
      b.Denotes F ρ sh k (s.arena.gradient F ρ s.grads i + v) := by
  simp only [Arena.gradient]
  cases hi : s.grads.get? i with
  | none =>
    exact ⟨g, s.arena, total_of_none hi, Arena.Extends.refl s.arena, h.regular, by rwa [zero_add]⟩
  | some old =>
    have hmem : ∀ x ∈ [old, g], s.arena.Has sh x := by
      intro x hx
      have hx : x = old ∨ x = g := by simpa using hx
      rcases hx with rfl | rfl
      · exact hold x hi
      · exact hg.1
    obtain ⟨k, b, hok, hab, hb, hk⟩ : Arena.Yields F ρ _ s.arena sh _ :=
      Arena.yields_sum h.regular (List.cons_ne_nil old [g]) hmem
    refine ⟨k, b, ?_, hab, hb, ?_⟩
    · have hprevious : previous i s = .ok (some old) s := by rw [previous, hi]
      rw [Pass.total, bind_of_ok hprevious]
      dsimp only
      rw [bind_of_ok (building_of_ok hok)]
      rfl
    · rw [Arena.total_cons, Arena.total_cons, hg.2] at hk
      simpa [Arena.total] using hk

/-- Taking what waits at a node takes its weight out of the flow. -/
theorem flow_take {i bound : Nat} (hi : i < bound) (d : Nat → R) :
    flow F ρ { s with pending := s.pending.erase (i : Int) } bound d =
      s.flow F ρ bound d - s.weight F ρ i * d i := by
  have hmem : i ∈ Finset.range bound := Finset.mem_range.mpr hi
  have hweight : ∀ m, weight F ρ { s with pending := s.pending.erase (i : Int) } m =
      s.weight F ρ m - if m = i then s.weight F ρ i else 0 := by
    intro m
    rw [weight, waiting_take]
    split
    · rename_i hm
      rw [hm, sub_self]
      rfl
    · rw [sub_zero]
      rfl
  simp only [flow, hweight, sub_mul, Finset.sum_sub_distrib, ite_mul, zero_mul,
    Finset.sum_ite_eq', hmem, if_true]

/-- A node that was met: its entry has grown by its weight, which was sent on. -/
structure Met (F : Functions R) (ρ : Nat → R) (sh : Shape) (live : Std.HashSet Int) (i : Nat)
    (n : Node) (k : Int) (s t : Pass) : Prop where
  kept : s.arena.Extends t.arena
  valid : t.Valid sh
  grads : t.grads = s.grads.insert (i : Int) k
  entry : t.arena.Denotes F ρ sh k (s.arena.gradient F ρ s.grads i + s.weight F ρ i)
  found : t.found = if n.kind = .param then s.found.push ((i : Int), k) else s.found
  waiting : ∀ m, t.waiting m = [] ↔
    m = i ∨ (s.waiting m = [] ∧ ((m : Int) ∈ live → m ∉ n.operands))
  flow : ∀ bound d, i < bound → (∀ c ∈ n.operands, (c : Int) ∉ live → d c = 0) →
    t.flow F ρ bound d = s.flow F ρ bound d - s.weight F ρ i * d i +
      s.weight F ρ i * n.form.tangent F (s.arena.value F ρ) d

/-- A node at which nothing waits, or that is not live, is passed over. -/
theorem meet_skip {live : Std.HashSet Int} {i : Nat}
    (h : s.waiting i = [] ∨ (i : Int) ∉ live) :
    meet live i s = .ok () { s with pending := s.pending.erase (i : Int) } := by
  have htake : take i s =
      .ok (s.waiting i).reverse { s with pending := s.pending.erase (i : Int) } :=
    rfl
  rw [meet, bind_of_ok htake]
  have hstop : ((s.waiting i).reverse.isEmpty || !live.contains (i : Int)) = true := by
    rcases h with h | h
    · simp [h]
    · simp [h]
  rw [if_pos hstop]
  rfl

theorem Valid.take (h : s.Valid sh) (i : Nat) :
    Valid sh { s with pending := s.pending.erase (i : Int) } := by
  refine ⟨h.regular, fun m g hg => ?_⟩
  rw [waiting_take] at hg
  split at hg
  · cases hg
  · exact h.has m g hg

theorem total_reverse (a : Arena) (gs : List Int) : a.total F ρ gs.reverse = a.total F ρ gs := by
  rw [Arena.total, List.map_reverse, List.sum_reverse]
  rfl

/-- What is sent to the operands completes the meeting of a node. -/
theorem Met.of_sent {live : Std.HashSet Int} {i : Nat} {n : Node} {k : Int} {b : Arena}
    {found : Array (Int × Int)} {gain : (Nat → R) → R} (h : s.Valid sh)
    (hn : s.arena.node? i = some n) (hab : s.arena.Extends b) (hb : b.Regular)
    (hk : b.Denotes F ρ sh k (s.arena.gradient F ρ s.grads i + s.weight F ρ i))
    (hfound : found = if n.kind = .param then s.found.push ((i : Int), k) else s.found)
    (hsent : Sent F ρ sh live n.operands gain
      ⟨b, s.grads.insert (i : Int) k, s.pending.erase (i : Int), found⟩ t)
    (hgain : ∀ d, gain d = s.weight F ρ i * n.form.tangent F (s.arena.value F ρ) d) :
    Met F ρ sh live i n k s t where
  kept := hab.trans hsent.kept
  valid := hsent.valid
  grads := hsent.grads
  entry := hk.of_extends hb hsent.valid.regular hsent.kept
  found := hsent.found.trans hfound
  waiting m := by
    have htake : Pass.waiting ⟨b, s.grads.insert (i : Int) k, s.pending.erase (i : Int), found⟩ m =
        if m = i then [] else s.waiting m := waiting_take s i m
    rw [hsent.waiting, htake]
    by_cases hm : m = i
    · have hself : m ∉ n.operands := by
        intro hmem
        have := h.regular.wellFormed i n hn m hmem
        omega
      simp [hm, hm ▸ hself]
    · simp [hm]
  flow bound d hbound hzero := by
    have hlt : ∀ c ∈ n.operands, c < bound := fun c hc =>
      Nat.lt_trans (h.regular.wellFormed i n hn c hc) hbound
    rw [hsent.flow bound d hlt hzero, hgain]
    refine congrArg (· + _) ?_
    rw [← flow_take hbound]
    refine Finset.sum_congr rfl fun m _ => congrArg (· * d m) ?_
    exact (h.take i).weight_grow hab hb m

/-- A live node at which something waits is met: what waits is summed and added to the table. -/
theorem meet_add {live : Std.HashSet Int} {i g : Int} {b : Arena} (hlive : i ∈ live)
    (hwait : s.pending.getD i [] ≠ [])
    (hsum : Arena.sum (s.pending.getD i []).reverse s.arena = .ok g b) :
    meet live i s = (do
      let sum ← Pass.total i g
      let n ← building (Arena.nodeAt i)
      let kind ← building (Node.kind <$> Arena.nodeAt g)
      if n.kind = .param then find i sum
      else if kind = .zero then sendUnchanged live g n.operands
      else sendByRules live i g n.form.rules : Passing Unit)
        ⟨b, s.grads, s.pending.erase i, s.found⟩ := by
  have hgo : ¬((s.pending.getD i []).reverse.isEmpty || !live.contains i) = true := by
    simp [hwait, hlive]
  have htake : Pass.take i s = .ok (s.pending.getD i []).reverse
      ⟨s.arena, s.grads, s.pending.erase i, s.found⟩ := rfl
  have hbuild : building (Arena.sum (s.pending.getD i []).reverse)
      ⟨s.arena, s.grads, s.pending.erase i, s.found⟩ =
        .ok g ⟨b, s.grads, s.pending.erase i, s.found⟩ := building_of_ok hsum
  refine (bind_of_ok htake).trans ?_
  rw [if_neg hgo]
  exact bind_of_ok hbuild

/-- What is met and added is then dealt with according to its kind. -/
theorem meet_run {live : Std.HashSet Int} {i : Int} {n m : Node} {g k : Int} {b : Arena}
    (hlive : i ∈ live) (hwait : s.pending.getD i [] ≠ [])
    (hsum : Arena.sum (s.pending.getD i []).reverse s.arena = .ok g b)
    (htotal : Pass.total i g ⟨b, s.grads, s.pending.erase i, s.found⟩ = .ok k t)
    (hn : t.arena.at? i = some n) (hg : t.arena.at? g = some m) :
    meet live i s =
      (if n.kind = .param then find i k
        else if m.kind = .zero then sendUnchanged live g n.operands
        else sendByRules live i g n.form.rules) t := by
  have hnode : building (Arena.nodeAt i) t = .ok n t := by
    refine building_of_ok ?_
    rw [Arena.nodeAt, hn]
  have hkind : building (Node.kind <$> Arena.nodeAt g) t = .ok m.kind t := by
    refine building_of_ok ?_
    have hm : Arena.nodeAt g t.arena = .ok m t.arena := by rw [Arena.nodeAt, hg]
    exact bind_of_ok (f := fun n => pure n.kind) hm
  rw [meet_add hlive hwait hsum]
  refine (bind_of_ok htotal).trans ?_
  refine (bind_of_ok hnode).trans ?_
  exact bind_of_ok hkind

/-- A single contribution needs no sum. -/
theorem sum_singleton {a : Arena} {g : Int} {m : Node} (hg : a.at? g = some m) :
    Arena.sum [g] a = .ok g a := by
  have hnode : Arena.nodeAt g a = .ok m a := by rw [Arena.nodeAt, hg]
  have hcheck : ([g].forM fun g => do let _ ← Arena.nodeAt g : Build Unit) a = .ok () a :=
    bind_of_ok (bind_of_ok hnode)
  refine (bind_of_ok hcheck).trans ?_
  cases hzero : a.isZero g <;> simp [accumulate, hzero] <;> rfl

theorem sum_waiting {i g : Int} {m : Node} (hwait : s.pending.getD i [] = [g])
    (hg : s.arena.at? g = some m) :
    Arena.sum (s.pending.getD i []).reverse s.arena = .ok g s.arena := by
  rw [hwait]
  exact sum_singleton hg

/-- An operator at which a single contribution waits, its first gradient, sends it on by its rules,
unless it is a zero. -/
theorem meet_single {live : Std.HashSet Int} {i : Nat} {n m : Node} {g : Int}
    (hlive : (i : Int) ∈ live) (hwait : s.waiting i = [g]) (hfirst : s.grads.get? i = none)
    (hn : s.arena.at? i = some n) (hkind : n.kind ≠ .param) (hg : s.arena.at? g = some m)
    (hzero : m.kind ≠ .zero) :
    meet live i s = sendByRules live i g n.form.rules
      ⟨s.arena, s.grads.insert i g, s.pending.erase (i : Int), s.found⟩ := by
  have hmeet := meet_run hlive (by simp [hwait] : s.waiting i ≠ []) (sum_waiting hwait hg)
    (total_of_none (s := ⟨s.arena, s.grads, s.pending.erase (i : Int), s.found⟩) hfirst) hn hg
  rwa [if_neg hkind, if_neg hzero] at hmeet

/-- A zero is sent to the operands as it is. -/
theorem Valid.sendUnchanged {g : Int} (h : s.Valid sh) (hg : s.arena.Denotes F ρ sh g 0)
    (live : Std.HashSet Int) (operands : List Nat) :
    ∃ t, Pass.sendUnchanged live g operands s = .ok () t ∧
      Sent F ρ sh live operands (fun _ => 0) s t := by
  obtain ⟨t, hok, hsent⟩ := h.sendEach live id (fun _ => (0 : R)) operands
    fun x _ c hc hcr => Arena.Yields.pure hcr (hg.of_extends h.regular hcr hc)
  have hgain : (fun d : Nat → R => (operands.map fun x => 0 * d (id x)).sum) = fun _ => 0 :=
    funext fun d => by simp
  rw [List.map_id, hgain] at hsent
  exact ⟨t, hok, hsent⟩

/-- What the rules of a node give is sent to its operands, and sums up to its tangent. -/
theorem Valid.sendByRules {a : Arena} {i : Nat} {n : Node} {g : Int} {v : R} (h : s.Valid sh)
    (ha : a.Regular) (has : a.Extends s.arena) (hn : a.node? i = some n) (hsh : n.shape = sh)
    (hg : s.arena.Denotes F ρ sh g v) (live : Std.HashSet Int) :
    ∃ t, Pass.sendByRules live i g n.form.rules s = .ok () t ∧
      Sent F ρ sh live n.operands (fun d => v * n.form.tangent F (a.value F ρ) d) s t := by
  have hself : a.Has sh (i : Int) := ⟨i, n, rfl, hn, hsh⟩
  have hoperand : ∀ x ∈ n.operands, a.Has sh (x : Int) := by
    intro x hx
    obtain ⟨o, ho, hshape⟩ := ha.uniform i n hn x hx
    exact ⟨x, o, rfl, ho, hshape.trans hsh⟩
  obtain ⟨t, hok, hsent⟩ := h.sendEach live Prod.fst
    (fun rule => rule.2.value F v (a.value F ρ i) (a.value F ρ)) n.form.rules
    fun rule hrule c hc hcr => by
      have hac := has.trans hc
      refine Arena.yields_carryOut rule.2 hcr (hg.of_extends h.regular hcr hc)
        (hself.denotes.of_extends ha hcr hac) fun x hx => ?_
      have hx := hoperand x (Form.operands_of_rule hrule x hx)
      exact hx.denotes.of_extends ha hcr hac
  rw [Form.rules_operands] at hsent
  have hgain : (fun d => v * n.form.tangent F (a.value F ρ) d) = fun d => (n.form.rules.map
      fun rule => rule.2.value F v (a.value F ρ i) (a.value F ρ) * d rule.1).sum :=
    funext fun d => (Form.sum_rules ha.wellFormed hn v d).symm
  exact ⟨t, hok, hgain ▸ hsent⟩

/-- Every live node at which something waits can be met. -/
theorem Valid.meet {live : Std.HashSet Int} {i : Nat} {n : Node} (h : s.Valid sh)
    (hlive : (i : Int) ∈ live) (hwait : s.waiting i ≠ []) (hn : s.arena.node? i = some n)
    (hsh : n.shape = sh) (hold : ∀ old, s.grads.get? i = some old → s.arena.Has sh old) :
    ∃ t k, Pass.meet live i s = .ok () t ∧ Met F ρ sh live i n k s t := by
  obtain ⟨g, b, hsum, hsb, hb, hg⟩ : Arena.Yields F ρ (Arena.sum (s.waiting i).reverse) s.arena sh
      (s.weight F ρ i) := by
    rw [weight, ← total_reverse]
    exact Arena.yields_sum h.regular (by simpa using hwait) fun x hx =>
      h.has i x (List.mem_reverse.mp hx)
  have hvalid : Valid sh ⟨b, s.grads, s.pending.erase (i : Int), s.found⟩ := (h.take i).grow hsb hb
  obtain ⟨k, b', htotal, hbb', hb', hk⟩ := hvalid.total i
    (fun old hi => (hold old hi).of_extends hsb) hg
  have hsb' := hsb.trans hbb'
  have hentry : b'.Denotes F ρ sh k (s.arena.gradient F ρ s.grads i + s.weight F ρ i) := by
    have hsame : b.gradient F ρ s.grads i = s.arena.gradient F ρ s.grads i :=
      Arena.gradient_of_extends h.regular hb hsb fun old hi => ⟨sh, hold old hi⟩
    exact hsame ▸ hk
  have hg' := hg.of_extends hb hb' hbb'
  obtain ⟨j, m, rfl, hm, _⟩ := hg'.1
  have hrun := meet_run hlive hwait hsum htotal
    (by rw [Arena.at?_ofNat]; exact hsb' i n hn) (by rw [Arena.at?_ofNat]; exact hm)
  have hu : ∀ found, Valid sh ⟨b', s.grads.insert (i : Int) k, s.pending.erase (i : Int), found⟩ :=
    fun _ => ⟨hb', (hvalid.grow hbb' hb').has⟩
  rw [hrun]
  by_cases hparam : n.kind = .param
  · rw [if_pos hparam]
    have hleaf : n.form = .leaf .param := Form.eq_leaf_of_kind hparam
    have hno : n.operands = [] := by rw [Node.operands, hleaf, Form.operands]
    have hsent := Sent.refl (F := F) (ρ := ρ) live (hu (s.found.push ((i : Int), k)))
    rw [← hno] at hsent
    refine ⟨_, k, rfl, Met.of_sent h hn hsb' hb' hentry (by rw [if_pos hparam]) hsent fun d => ?_⟩
    rw [hleaf, Form.tangent, mul_zero]
  · rw [if_neg hparam]
    have hdone : s.found = if n.kind = .param then s.found.push ((i : Int), k) else s.found := by
      rw [if_neg hparam]
    by_cases hzero : m.kind = .zero
    · rw [if_pos hzero]
      have hweight : s.weight F ρ i = 0 := by
        rw [← hg'.2]
        exact Arena.value_zero hm (Form.eq_leaf_of_kind hzero)
      obtain ⟨t, hok, hsent⟩ := (hu s.found).sendUnchanged (hweight ▸ hg') live n.operands
      refine ⟨t, k, hok, Met.of_sent h hn hsb' hb' hentry hdone hsent fun d => ?_⟩
      rw [hweight, zero_mul]
    · rw [if_neg hzero]
      obtain ⟨t, hok, hsent⟩ := (hu s.found).sendByRules h.regular hsb' hn hsh hg' live
      exact ⟨t, k, hok, Met.of_sent h hn hsb' hb' hentry hdone hsent fun _ => rfl⟩

end Pass

end TensorGraph
