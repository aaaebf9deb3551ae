import TensorGraph.Proofs.Gradient.Accumulation
import TensorGraph.Proofs.Gradient.Sweep

/-!
# Passes in parallel

Two passes meet corresponding nodes in the same order. What waits at the live nodes of one waits at
their places in the other, whatever else the other does at nodes that are not live in the first. So
both give corresponding gradients to these nodes.
-/

namespace TensorGraph

namespace Pass

/-! ### What a step does -/

/-- The tables of a pass stay. -/
def SameTables (s t : Pass) : Prop := t.grads = s.grads ∧ t.found = s.found

instance : IsPreorder Pass SameTables where
  refl _ := ⟨rfl, rfl⟩
  trans _ _ _ hst htu := ⟨htu.1.trans hst.1, htu.2.trans hst.2⟩

/-- What waits at a node stays. -/
def SameAt (m : Nat) (s t : Pass) : Prop := t.waiting m = s.waiting m

instance (m : Nat) : IsPreorder Pass (SameAt m) where
  refl _ := rfl
  trans _ _ _ hst htu := htu.trans hst

section Sending

variable {β : Type} (live : Std.HashSet Int) {target : β → Nat} {build : β → Build Int}

theorem building_sameTables {α : Type} (x : Build α) : Keeps SameTables (building x) := by
  rintro ⟨arena, grads, pending, found⟩
  simp only [building]
  cases x arena with
  | ok v b => exact ⟨rfl, rfl⟩
  | error e b => exact ⟨rfl, rfl⟩

theorem building_sameAt {α : Type} (x : Build α) (m : Nat) : Keeps (SameAt m) (building x) := by
  rintro ⟨arena, grads, pending, found⟩
  simp only [building]
  cases x arena with
  | ok v b => rfl
  | error e b => rfl

theorem sendOne_sameTables (x : Nat) (y : Build Int) : Keeps SameTables (sendOne live x y) := by
  simp only [sendOne]
  split
  · exact Keeps.bind (building_sameTables _) fun h _ => ⟨rfl, rfl⟩
  · exact Keeps.pure ()

theorem sendOne_sameAt {x m : Nat} (hm : m ≠ x) (y : Build Int) :
    Keeps (SameAt m) (sendOne live x y) := by
  simp only [sendOne]
  split
  · refine Keeps.bind (building_sameAt _ m) fun g s => ?_
    exact (waiting_send s x m g).trans (if_neg hm)
  · exact Keeps.pure ()

theorem sendOne_grows (x : Nat) {y : Build Int} (hy : Keeps Arena.GrowsUniformly y) :
    Keeps Grows (sendOne live x y) := by
  simp only [sendOne]
  split
  · exact Keeps.bind (building_keeps hy) fun g => send_keeps x g
  · exact Keeps.pure ()

theorem sendEach_sameTables (xs : List β) : Keeps SameTables (sendEach live target build xs) :=
  Keeps.forM xs fun x _ => sendOne_sameTables live (target x) (build x)

theorem sendEach_map {γ : Type} (f : γ → β) (xs : List γ) :
    sendEach live target build (xs.map f) = sendEach live (target ∘ f) (build ∘ f) xs := by
  induction xs with
  | nil => rfl
  | cons x xs ih => exact congrArg (sendOne live _ _ >>= fun _ => ·) ih

theorem sendEach_sameAt {xs : List β} {m : Nat} (hm : ∀ x ∈ xs, m ≠ target x) :
    Keeps (SameAt m) (sendEach live target build xs) :=
  Keeps.forM xs fun x hx => sendOne_sameAt live (hm x hx) (build x)

end Sending

theorem exists_of_building_ok {α : Type} {x : Build α} {v : α} {s t : Pass}
    (h : building x s = .ok v t) : ∃ b, x s.arena = .ok v b ∧ t = { s with arena := b } := by
  obtain ⟨arena, grads, pending, found⟩ := s
  simp only [building] at h
  cases hx : x arena with
  | ok u b =>
    rw [hx] at h
    cases h
    exact ⟨b, rfl, rfl⟩
  | error e b =>
    rw [hx] at h
    cases h

/-- The entry of a node is what adding to the previous one gives. -/
theorem exists_of_total_ok {i g k : Int} {s t : Pass} (h : total i g s = .ok k t) :
    ∃ b, Arena.addTo (s.grads.get? i) g s.arena = .ok k b ∧
      t = { s with arena := b, grads := s.grads.insert i k } := by
  have hprevious : previous i s = .ok (s.grads.get? i) s := rfl
  rw [total, bind_of_ok hprevious] at h
  cases hi : s.grads.get? i with
  | none =>
    rw [hi] at h
    cases h
    exact ⟨s.arena, rfl, rfl⟩
  | some old =>
    rw [hi] at h
    obtain ⟨sum, u, hsum, hstore⟩ := exists_of_bind_ok h
    obtain ⟨b, hb, rfl⟩ := exists_of_building_ok hsum
    cases hstore
    exact ⟨b, hb, rfl⟩

/-- What is done with the gradient of a node, by the kinds of both. -/
def forward (live : Std.HashSet Int) (i g k : Int) (n : Node) (kind : Kind) : Passing Unit :=
  if n.kind = .param then find i k
  else if kind = .zero then sendUnchanged live g n.operands
  else sendByRules live i g n.form.rules

/-- A live node at which something waits: its contributions are summed, the sum is added to its
entry and sent on. -/
theorem exists_of_meet_ok {live : Std.HashSet Int} {i : Nat} {s t : Pass} (hlive : (i : Int) ∈ live)
    (hwait : s.waiting i ≠ []) (h : meet live i s = .ok () t) :
    ∃ (g k : Int) (b d : Arena) (n m : Node), Arena.sum (s.waiting i).reverse s.arena = .ok g b ∧
      Arena.addTo (s.grads.get? i) g b = .ok k d ∧ d.at? i = some n ∧ d.at? g = some m ∧
      forward live i g k n m.kind
        ⟨d, s.grads.insert i k, s.pending.erase (i : Int), s.found⟩ = .ok () t := by
  have hgo : ¬((s.waiting i).reverse.isEmpty || !live.contains (i : Int)) = true := by
    simp [hwait, hlive]
  have htake : take i s =
      .ok (s.waiting i).reverse ⟨s.arena, s.grads, s.pending.erase (i : Int), s.found⟩ := rfl
  rw [meet, bind_of_ok htake, if_neg hgo] at h
  obtain ⟨g, s₁, hsum, h₁⟩ := exists_of_bind_ok h
  obtain ⟨b, hb, rfl⟩ := exists_of_building_ok hsum
  obtain ⟨k, s₂, htotal, h₂⟩ := exists_of_bind_ok h₁
  obtain ⟨d, hd, rfl⟩ := exists_of_total_ok htotal
  obtain ⟨n, s₃, hnode, h₃⟩ := exists_of_bind_ok h₂
  obtain ⟨_, hn, rfl⟩ := exists_of_building_ok hnode
  obtain ⟨hi, rfl⟩ := Arena.of_nodeAt_ok hn
  obtain ⟨kind, s₄, hkind, h₄⟩ := exists_of_bind_ok h₃
  obtain ⟨_, hmap, rfl⟩ := exists_of_building_ok hkind
  obtain ⟨m, _, hm, hpure⟩ := exists_of_bind_ok hmap
  obtain ⟨hg, rfl⟩ := Arena.of_nodeAt_ok hm
  cases hpure
  exact ⟨g, k, b, _, n, m, hb, hd, hi, hg, h₄⟩

/-! ### Frames -/

section Frames

variable {live : Std.HashSet Int} {i : Nat} {g k : Int} {n : Node} {kind : Kind}

/-- Sending a gradient on leaves the table. -/
theorem grads_of_forward_ok {s t : Pass} (h : forward live i g k n kind s = .ok () t) :
    t.grads = s.grads := by
  simp only [forward] at h
  split at h
  · cases h
    rfl
  · split at h
    · rw [sendUnchanged_eq] at h
      exact ((sendEach_sameTables live _).of_ok h).1
    · rw [sendByRules_eq] at h
      exact ((sendEach_sameTables live _).of_ok h).1

theorem forward_sameAt {m : Nat} (hm : m ∉ n.operands) :
    Keeps (SameAt m) (forward live i g k n kind) := by
  simp only [forward]
  split
  · exact fun s => rfl
  · split
    · rw [sendUnchanged_eq]
      refine sendEach_sameAt live fun x hx => ?_
      rintro rfl
      exact hm hx
    · rw [sendByRules_eq]
      refine sendEach_sameAt live fun rule hrule => ?_
      rintro rfl
      rw [Node.operands, ← Form.rules_operands] at hm
      exact hm (List.mem_map_of_mem hrule)

/-- Meeting a node changes what waits at it and at its operands only. -/
theorem waiting_of_meet_ok {s t : Pass} (hn : s.arena.node? i = some n)
    (h : meet live i s = .ok () t) {m : Nat} (hmi : m ≠ i) (hm : m ∉ n.operands) :
    t.waiting m = s.waiting m := by
  have htake := waiting_take s i m
  rw [if_neg hmi] at htake
  by_cases hskip : s.waiting i = [] ∨ (i : Int) ∉ live
  · rw [meet_skip hskip] at h
    cases h
    exact htake
  · rw [not_or, not_not] at hskip
    obtain ⟨g, k, b, d, n', m', hsum, hadd, hi, -, hforward⟩ := exists_of_meet_ok hskip.2 hskip.1 h
    -- the node is still the same after sums were built
    have hkept :=
      ((Arena.sum_keeps _).of_ok hsum).1.1.trans ((Arena.addTo_keeps _ _).of_ok hadd).1.1
    rw [Arena.at?_ofNat, hkept i n hn] at hi
    cases hi
    exact ((forward_sameAt hm).of_ok hforward).trans htake

/-- Meeting a node changes its own entry only. -/
theorem get?_of_meet_ok {s t : Pass} (h : meet live i s = .ok () t) {j : Int} (hj : (i : Int) ≠ j) :
    t.grads.get? j = s.grads.get? j := by
  by_cases hskip : s.waiting i = [] ∨ (i : Int) ∉ live
  · rw [meet_skip hskip] at h
    cases h
    rfl
  · rw [not_or, not_not] at hskip
    obtain ⟨g, k, b, d, n, m, -, -, -, -, hforward⟩ := exists_of_meet_ok hskip.2 hskip.1 h
    rw [grads_of_forward_ok hforward]
    exact Sweeping.get?_insert_of_ne _ _ hj

end Frames

/-! ### Shadows -/

/-- Corresponding gradients have come to a node in both passes, and each is added to the entry of
its table. -/
structure BothMet (E F : Embedding) (base i : Nat) (g h k k' : Int) (s t s' t' : Pass) : Prop where
  given : F.Matches g h
  adds : F.inner.Adds base (s.grads.get? i) g k
  adds' : F.outer.Adds base (t.grads.get? (E.place i : Nat)) h k'
  entries : Option.Rel E.Matches (s.grads.get? i) (t.grads.get? (E.place i : Nat)) → F.Matches k k'
  grads : s'.grads = s.grads.insert (i : Int) k
  grads' : t'.grads = t.grads.insert (E.place i : Int) k'

/-- What waits at live nodes of one pass waits at their places in the other. -/
structure Shadows (E : Embedding) (live : Nat → Prop) (s t : Pass) : Prop where
  inner : E.inner = s.arena
  outer : E.outer = t.arena
  lt : ∀ m, live m → m < E.inner.size
  waiting : ∀ m, live m → List.Forall₂ E.Matches (s.waiting m) (t.waiting (E.place m))

namespace Shadows

variable {E F : Embedding} {live : Nat → Prop} {s t s' t' : Pass} {g h : Int} {x : Nat}

/-- Both passes may build, and what waits in them may change elsewhere. -/
theorem mono (hst : Shadows E live s t) (hEF : E.Extends F) (hinner : F.inner = s'.arena)
    (houter : F.outer = t'.arena) (hs : ∀ m, live m → s'.waiting m = s.waiting m)
    (ht : ∀ m, live m → t'.waiting (E.place m) = t.waiting (E.place m)) :
    Shadows F live s' t' where
  inner := hinner
  outer := houter
  lt m hm := Nat.lt_of_lt_of_le (hst.lt m hm) (Embedding.size_le_of_extends hEF.inner)
  waiting m hm := by
    rw [hEF.place m (hst.lt m hm), hs m hm, ht m hm]
    exact Embedding.forall₂_mono hEF (hst.waiting m hm)

theorem building (hst : Shadows E live s t) (hEF : E.Extends F) :
    Shadows F live { s with arena := F.inner } { t with arena := F.outer } :=
  hst.mono hEF rfl rfl (fun _ _ => rfl) fun _ _ => rfl

/-- Another pass takes and sends at places of nodes that are not live only. -/
theorem place_ne (hst : Shadows E live s t) (hx : x < E.inner.size) (hdead : ¬live x) {m : Nat}
    (hm : live m) : E.place m ≠ E.place x := by
  intro heq
  have := Embedding.place_injective (hst.lt m hm) hx heq
  exact hdead (this ▸ hm)

/-- Corresponding gradients are sent to a live node. -/
theorem send (hst : Shadows E live s t) (hgh : E.Matches g h) (hx : x < E.inner.size)
    (hs : Pass.send x g s = .ok () s') (ht : Pass.send (E.place x) h t = .ok () t') :
    Shadows E live s' t' := by
  cases hs
  cases ht
  refine ⟨hst.inner, hst.outer, hst.lt, fun m hm => ?_⟩
  have hs := waiting_send s x m g
  have ht := waiting_send t (E.place x) (E.place m) h
  by_cases hmx : m = x
  · subst hmx
    rw [if_pos rfl] at hs ht
    exact (congrArg₂ (List.Forall₂ E.Matches) hs ht).mpr (.cons hgh (hst.waiting m hm))
  · have hne : E.place m ≠ E.place x := fun heq =>
      hmx (Embedding.place_injective (hst.lt m hm) hx heq)
    rw [if_neg hmx] at hs
    rw [if_neg hne] at ht
    exact (congrArg₂ (List.Forall₂ E.Matches) hs ht).mpr (hst.waiting m hm)

/-- Both passes may take out what waits at corresponding nodes. -/
theorem take (hst : Shadows E live s t) (hx : x < E.inner.size) :
    Shadows E live { s with pending := s.pending.erase (x : Int) }
      { t with pending := t.pending.erase (E.place x : Int) } := by
  refine ⟨hst.inner, hst.outer, hst.lt, fun m hm => ?_⟩
  have hs := waiting_take s x m
  have ht := waiting_take t (E.place x) (E.place m)
  by_cases hmx : m = x
  · subst hmx
    rw [if_pos rfl] at hs ht
    exact (congrArg₂ (List.Forall₂ E.Matches) hs ht).mpr .nil
  · rw [if_neg hmx] at hs
    rw [if_neg fun heq => hmx (Embedding.place_injective (hst.lt m hm) hx heq)] at ht
    exact (congrArg₂ (List.Forall₂ E.Matches) hs ht).mpr (hst.waiting m hm)

/-- The other pass may go on alone, as long as nothing happens at live nodes. -/
theorem alone (hst : Shadows E live s t) (hgrows : t.arena.Extends t'.arena)
    (hsame : ∀ m, live m → t'.waiting (E.place m) = t.waiting (E.place m)) :
    ∃ F, E.Extends F ∧ Shadows F live s t' := by
  have houter : E.outer.Extends t'.arena := by
    rw [hst.outer]
    exact hgrows
  exact ⟨E.widen houter, E.extends_widen houter,
    hst.mono (E.extends_widen houter) hst.inner rfl (fun _ _ => rfl) hsame⟩

variable {L R : Std.HashSet Int}

section Sending

variable (hL : ∀ x : Nat, (x : Int) ∈ L ↔ live x) (hR : ∀ x, live x → (E.place x : Int) ∈ R)

include hL hR

/-- What is sent to a node corresponds; the other pass may send where this one does not. -/
theorem sendOne {build build' : Build Int} (hst : Shadows E live s t) (hx : x < E.inner.size)
    (hbuild : E.Parallel build build' Embedding.Matches)
    (hgrows : Keeps Arena.GrowsUniformly build')
    (hs : Pass.sendOne L x build s = .ok () s')
    (ht : Pass.sendOne R (E.place x) build' t = .ok () t') :
    ∃ F, E.Extends F ∧ Shadows F live s' t' := by
  by_cases hlive : live x
  · simp only [Pass.sendOne] at hs ht
    rw [if_pos ((hL x).mpr hlive)] at hs
    rw [if_pos (hR x hlive)] at ht
    obtain ⟨g, s₁, hg, hs⟩ := exists_of_bind_ok hs
    obtain ⟨h, t₁, hh, ht⟩ := exists_of_bind_ok ht
    obtain ⟨b, hb, rfl⟩ := exists_of_building_ok hg
    obtain ⟨d, hd, rfl⟩ := exists_of_building_ok hh
    obtain ⟨F, rfl, rfl, hEF, hgh⟩ := hbuild _ _ _ _ (hst.inner ▸ hb) (hst.outer ▸ hd)
    refine ⟨F, hEF, (hst.building hEF).send hgh
      (Nat.lt_of_lt_of_le hx (Embedding.size_le_of_extends hEF.inner)) hs ?_⟩
    rw [hEF.place x hx]
    exact ht
  · simp only [Pass.sendOne] at hs
    rw [if_neg fun hmem => hlive ((hL x).mp hmem)] at hs
    cases hs
    exact hst.alone ((sendOne_grows R (E.place x) hgrows).of_ok ht).1.1 fun m hm =>
      (sendOne_sameAt R (hst.place_ne hx hlive hm) build').of_ok ht

/-- What is sent to several nodes corresponds. -/
theorem sendEach {β : Type} {target target' : β → Nat} {build build' : β → Build Int} {xs : List β}
    (hst : Shadows E live s t) (hx : ∀ x ∈ xs, target x < E.inner.size)
    (htarget : ∀ x ∈ xs, target' x = E.place (target x))
    (hbuild : ∀ x ∈ xs, ∀ F, E.Extends F → F.Parallel (build x) (build' x) Embedding.Matches)
    (hgrows : ∀ x ∈ xs, Keeps Arena.GrowsUniformly (build' x))
    (hs : Pass.sendEach L target build xs s = .ok () s')
    (ht : Pass.sendEach R target' build' xs t = .ok () t') :
    ∃ F, E.Extends F ∧ Shadows F live s' t' := by
  induction xs generalizing E s t with
  | nil =>
    cases hs
    cases ht
    exact ⟨E, .refl E, hst⟩
  | cons x xs ih =>
    have hmem := List.mem_cons_self (a := x) (l := xs)
    have hrest := fun {y} (hy : y ∈ xs) => List.mem_cons_of_mem x hy
    obtain ⟨_, s₁, hs₁, hs⟩ := exists_of_bind_ok hs
    obtain ⟨_, t₁, ht₁, ht⟩ := exists_of_bind_ok ht
    change Pass.sendOne R (target' x) (build' x) t = .ok _ t₁ at ht₁
    rw [htarget x hmem] at ht₁
    obtain ⟨F, hEF, h₁⟩ := hst.sendOne hL hR (hx x hmem) (hbuild x hmem E (.refl E))
      (hgrows x hmem) hs₁ ht₁
    have hle := Embedding.size_le_of_extends hEF.inner
    obtain ⟨G, hFG, h₂⟩ := ih (E := F)
      (fun y hy => by
        rw [hEF.place y (hst.lt y hy)]
        exact hR y hy) h₁
      (fun y hy => Nat.lt_of_lt_of_le (hx y (hrest hy)) hle)
      (fun y hy => by rw [htarget y (hrest hy), hEF.place _ (hx y (hrest hy))])
      (fun y hy G hFG => hbuild y (hrest hy) G (hEF.trans hFG))
      (fun y hy => hgrows y (hrest hy)) hs ht
    exact ⟨G, hEF.trans hFG, h₂⟩

/-- Something is sent on in the same way at a live node and at its place. -/
theorem forward {i j : Nat} {k k' : Int} {n : Node} {kind : Kind}
    (hst : Shadows E live s t) (hgh : E.Matches g h) (hn : E.inner.node? i = some n)
    (hj : E.place i = j) (hs : Pass.forward L i g k n kind s = .ok () s')
    (ht : Pass.forward R j h k' (n.rename E.place) kind t = .ok () t') :
    ∃ F, E.Extends F ∧ Shadows F live s' t' := by
  subst hj
  have hi := Arena.lt_size_of_node? hn
  have hlt : ∀ x ∈ n.operands, x < E.inner.size := fun x hx =>
    Nat.lt_trans (E.wellFormed i n hn x hx) hi
  simp only [Pass.forward, Node.kind_rename] at hs ht
  by_cases hparam : n.kind = .param
  · rw [if_pos hparam] at hs ht
    cases hs
    cases ht
    exact ⟨E, .refl E, hst.inner, hst.outer, hst.lt, hst.waiting⟩
  · rw [if_neg hparam] at hs ht
    by_cases hzero : kind = .zero
    · rw [if_pos hzero, sendUnchanged_eq] at hs ht
      rw [Node.operands_rename, sendEach_map] at ht
      exact hst.sendEach hL hR hlt (fun _ _ => rfl)
        (fun x _ F hEF => .pure (hgh.mono hEF)) (fun x _ => Keeps.pure _) hs ht
    · rw [if_neg hzero, sendByRules_eq] at hs ht
      rw [Node.rename, Form.rules_rename, sendEach_map] at ht
      have hrule : ∀ rule ∈ n.form.rules, rule.1 < E.inner.size := by
        intro rule hrule
        refine hlt _ ?_
        rw [Node.operands, ← Form.rules_operands]
        exact List.mem_map_of_mem hrule
      refine hst.sendEach hL hR hrule (fun _ _ => rfl) (fun rule hrule F hEF => ?_)
        (fun rule _ => Arena.carryOut_keeps _ _ _ _) hs ht
      simp only [Recipe.carryOut_rename]
      refine Embedding.parallel_carryOut rule.2 (hgh.mono hEF)
        ((Embedding.matches_place hi).mono hEF) fun x hx => ?_
      have hx := hlt x (Form.operands_of_rule hrule x hx)
      exact (Embedding.matches_place hx).mono hEF

/-- A live node is met in both passes. -/
theorem meet {base i : Nat} (hst : Shadows E live s t) (hi : live i) (hwait : s.waiting i ≠ [])
    (hbase : base ≤ E.inner.size)
    (hold : s.grads.get? i = none ∨
      Option.Rel E.Matches (s.grads.get? i) (t.grads.get? (E.place i : Nat)))
    (hs : Pass.meet L i s = .ok () s') (ht : Pass.meet R (E.place i : Nat) t = .ok () t') :
    ∃ F G g h k k', E.Extends F ∧ F.Extends G ∧ Shadows G live s' t' ∧
      BothMet E F base i g h k k' s t s' t' := by
  have hsize := hst.lt i hi
  have hwaiting := hst.waiting i hi
  have hwait' : t.waiting (E.place i) ≠ [] := by
    intro hnil
    rw [hnil] at hwaiting
    exact hwait (List.forall₂_nil_right_iff.mp hwaiting)
  obtain ⟨g, k, b, d, n, m, hsum, hadd, hn, hm, hforward⟩ :=
    exists_of_meet_ok ((hL i).mpr hi) hwait hs
  obtain ⟨h, k', b', d', n', m', hsum', hadd', hn', hm', hforward'⟩ :=
    exists_of_meet_ok (hR i hi) hwait' ht
  rw [← hst.inner] at hsum
  rw [← hst.outer] at hsum'
  obtain ⟨E₁, rfl, rfl, hEE₁, hgh⟩ :=
    Embedding.parallel_sum (List.rel_reverse hwaiting) _ _ _ _ hsum hsum'
  have hbase₁ := hbase.trans (Embedding.size_le_of_extends hEE₁.inner)
  obtain ⟨F, rfl, rfl, hE₁F, hkk'⟩ :=
    Embedding.exists_of_addTo (hold.imp_right (Embedding.rel_mono hEE₁)) hgh hadd hadd'
  have hadds := Arena.adds_of_addTo hbase₁ hadd
  have hadds' := Arena.adds_of_addTo (hbase₁.trans E₁.size_le) hadd'
  have hEF := hEE₁.trans hE₁F
  have hplace := hEF.place i hsize
  have hgh := hgh.mono hE₁F
  -- the node is the same on both sides, and so is the kind of its gradient
  rw [Arena.at?_ofNat] at hn hn'
  have hnode := F.node hn
  rw [hplace, hn'] at hnode
  cases hnode
  obtain ⟨x, o, rfl, rfl, hx, hx'⟩ := id hgh.exists_node
  rw [Arena.at?_ofNat] at hm hm'
  cases hm.symm.trans hx
  cases hm'.symm.trans hx'
  rw [Node.kind_rename] at hforward'
  have htaken : Shadows F live
      ⟨F.inner, s.grads.insert i k, s.pending.erase (i : Int), s.found⟩
      ⟨F.outer, t.grads.insert (E.place i : Nat) k', t.pending.erase (E.place i : Int),
        t.found⟩ :=
    (hst.take hsize).mono hEF rfl rfl (fun _ _ => rfl) fun _ _ => rfl
  have hplaces : ∀ x, live x → (F.place x : Int) ∈ R := by
    intro x hx
    rw [hEF.place x (hst.lt x hx)]
    exact hR x hx
  obtain ⟨G, hFG, hshadows⟩ := Shadows.forward hL hplaces htaken hgh hn hplace hforward hforward'
  exact ⟨F, G, _, _, k, k', hEF, hFG, hshadows, hgh, hadds, hadds',
    fun hrel => hkk' (Embedding.rel_mono hEE₁ hrel), grads_of_forward_ok hforward,
    grads_of_forward_ok hforward'⟩

end Sending

end Shadows

end Pass

end TensorGraph
