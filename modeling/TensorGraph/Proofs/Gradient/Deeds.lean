import TensorGraph.Proofs.Gradient.Size

/-!
# What a pass does, and how often

A pass that notes what it does is the same pass with a list beside it. In that list each live node
has its contributions summed, once; its rules are applied at most once, and for no more than its
live operands, at most once for each, is a gradient built.
-/

namespace TensorGraph

/-- What a pass does for a node: it adds the contributions up, it applies the rules, or it builds the
gradient of the operand at a position. -/
inductive Deed where
  | sums (i : Int)
  | applies (i : Int)
  | builds (i : Int) (position : Nat)
deriving DecidableEq, Repr, Inhabited

/-- The node for which something is done. -/
def Deed.node : Deed → Int
  | .sums i | .applies i | .builds i _ => i

/-- Actions that note what they do, the latest last. -/
abbrev Noted (σ : Type) := EStateM Error (σ × List Deed)

namespace Noted

variable {σ α β : Type}

def note (d : Deed) : Noted σ Unit := fun (s, deeds) => .ok () (s, deeds ++ [d])

/-- An action of which nothing is noted. -/
def quietly (x : EStateM Error σ α) : Noted σ α := fun (s, deeds) =>
  match x s with
  | .ok v s => .ok v (s, deeds)
  | .error e s => .error e (s, deeds)

/-- Without its notes an action is another one. -/
def Erases (x : Noted σ α) (y : EStateM Error σ α) : Prop :=
  ∀ s deeds, Agree Eq (fun p t => p.1 = t) (x (s, deeds)) (y s)

theorem erases_quietly (x : EStateM Error σ α) : Erases (quietly x) x := by
  intro s deeds
  simp only [quietly]
  cases x s with
  | ok v t => exact .ok rfl rfl
  | error e t => exact .error e rfl

theorem Erases.pure (v : α) : Erases (Pure.pure v) (Pure.pure v : EStateM Error σ α) :=
  fun _ _ => .ok rfl rfl

theorem Erases.throw (e : Error) :
    Erases (MonadExcept.throw e) (MonadExcept.throw e : EStateM Error σ α) :=
  fun _ _ => .error e rfl

theorem Erases.bind {x : Noted σ α} {y : EStateM Error σ α} {f : α → Noted σ β}
    {g : α → EStateM Error σ β} (hxy : Erases x y) (hfg : ∀ v, Erases (f v) (g v)) :
    Erases (x >>= f) (y >>= g) := by
  intro s deeds
  refine (hxy s deeds).bind fun u v p t huv hpt => ?_
  subst huv hpt
  exact hfg u p.1 p.2

theorem Erases.note_bind {f : Unit → Noted σ β} {y : EStateM Error σ β} (d : Deed)
    (h : Erases (f ()) y) : Erases (note d >>= f) y :=
  fun s deeds => h s (deeds ++ [d])

theorem Erases.forM {f : α → Noted σ Unit} {g : α → EStateM Error σ Unit}
    (hfg : ∀ x, Erases (f x) (g x)) (xs : List α) : Erases (xs.forM f) (xs.forM g) := by
  induction xs with
  | nil => exact .pure ()
  | cons x xs ih => exact (hfg x).bind fun _ => ih

/-- An action succeeds with its notes exactly as it does without them. -/
theorem Erases.ok {x : Noted σ α} {y : EStateM Error σ α} (h : Erases x y) {s t : σ} {v : α}
    (hy : y s = .ok v t) (deeds : List Deed) :
    ∃ deeds', x (s, deeds) = .ok v (t, deeds') := by
  have hagree := h s deeds
  rw [hy] at hagree
  generalize hx : x (s, deeds) = o at hagree
  cases hagree with
  | ok hu hp =>
    rename_i u p
    subst hu hp
    exact ⟨p.2, rfl⟩

theorem Erases.of_ok {x : Noted σ α} {y : EStateM Error σ α} (h : Erases x y) {s t : σ} {v : α}
    {deeds deeds' : List Deed} (hx : x (s, deeds) = .ok v (t, deeds')) : y s = .ok v t := by
  have hagree := h s deeds
  rw [hx] at hagree
  generalize y s = o at hagree
  cases hagree with
  | ok hu hp =>
    subst hu hp
    rfl

theorem quietly_of_ok {x : EStateM Error σ α} {s t : σ} {v : α} (h : x s = .ok v t)
    (deeds : List Deed) : quietly x (s, deeds) = .ok v (t, deeds) := by
  simp only [quietly, h]

theorem exists_of_quietly_ok {x : EStateM Error σ α} {s : σ} {deeds : List Deed} {v : α}
    {p : σ × List Deed} (h : quietly x (s, deeds) = .ok v p) :
    ∃ t, x s = .ok v t ∧ p = (t, deeds) := by
  simp only [quietly] at h
  cases hx : x s with
  | ok u t =>
    rw [hx] at h
    cases h
    exact ⟨t, rfl, rfl⟩
  | error e t =>
    rw [hx] at h
    cases h

theorem exists_of_quietly_bind_ok {x : EStateM Error σ α} {f : α → Noted σ β} {s : σ}
    {deeds : List Deed} {v : β} {p : σ × List Deed}
    (h : (quietly x >>= f) (s, deeds) = .ok v p) :
    ∃ u t, x s = .ok u t ∧ f u (t, deeds) = .ok v p := by
  obtain ⟨u, q, hquiet, h⟩ := exists_of_bind_ok h
  obtain ⟨t, hx, rfl⟩ := exists_of_quietly_ok hquiet
  exact ⟨u, t, hx, h⟩

end Noted

open Noted

namespace Pass

/-! ### Noting -/

/-- Sends a gradient on by the rules that stand at the positions. -/
def sendNoted (live : Std.HashSet Int) (i : Int) (g : Int) (rules : List ((Nat × Recipe) × Nat)) :
    Noted Pass Unit :=
  rules.forM fun ((x, recipe), position) =>
    if (x : Int) ∈ live then do
      note (.builds i position)
      let h ← quietly (building (recipe.carryOut Arena.algebra g i Int.ofNat))
      quietly (send x h)
    else pure ()

/-- Does with the gradient of a node what is due, and notes when its rules are applied. -/
def forwardNoted (live : Std.HashSet Int) (i g k : Int) (n : Node) (kind : Kind) :
    Noted Pass Unit :=
  if n.kind = .param then quietly (find i k)
  else if kind = .zero then quietly (sendUnchanged live g n.operands)
  else do
    note (.applies i)
    sendNoted live i g n.form.rules.zipIdx

/-- Meets one node and notes what is done. -/
def meetNoted (live : Std.HashSet Int) (i : Int) : Noted Pass Unit := do
  let contributions ← quietly (take i)
  if contributions.isEmpty || !live.contains i then return
  note (.sums i)
  let g ← quietly (building (Arena.sum contributions))
  let sum ← quietly (total i g)
  let n ← quietly (building (Arena.nodeAt i))
  let kind ← quietly (building (Node.kind <$> Arena.nodeAt g))
  forwardNoted live i g sum n kind

variable {live : Std.HashSet Int} {i g k : Int} {n : Node} {kind : Kind}

theorem erases_sendNoted (live : Std.HashSet Int) (i g : Int)
    (rules : List ((Nat × Recipe) × Nat)) :
    Erases (sendNoted live i g rules) (sendByRules live i g (rules.map Prod.fst)) := by
  induction rules with
  | nil => exact .pure ()
  | cons rule rules ih =>
    refine Erases.bind ?_ fun _ => ih
    obtain ⟨⟨x, recipe⟩, position⟩ := rule
    dsimp only
    split
    · refine Erases.note_bind _ ((erases_quietly _).bind fun h => ?_)
      exact erases_quietly _
    · exact .pure ()

theorem erases_forwardNoted :
    Erases (forwardNoted live i g k n kind) (forward live i g k n kind) := by
  simp only [forwardNoted, forward]
  split
  · exact erases_quietly _
  · split
    · exact erases_quietly _
    · refine Erases.note_bind _ ?_
      have hsend := erases_sendNoted live i g n.form.rules.zipIdx
      rwa [List.zipIdx_map_fst] at hsend

/-- Noting changes nothing about meeting a node. -/
theorem erases_meetNoted (live : Std.HashSet Int) (i : Int) :
    Erases (meetNoted live i) (meet live i) := by
  refine (erases_quietly _).bind fun contributions => ?_
  split
  · exact .pure ()
  · refine Erases.note_bind _ ((erases_quietly _).bind fun g => ?_)
    refine (erases_quietly _).bind fun sum => ?_
    refine (erases_quietly _).bind fun n => ?_
    exact (erases_quietly _).bind fun kind => erases_forwardNoted

/-! ### What is noted -/

/-- The gradients that are built for the operands of a node. -/
def builds (live : Std.HashSet Int) (i : Int) (rules : List ((Nat × Recipe) × Nat)) : List Deed :=
  (rules.filter fun rule => (rule.1.1 : Int) ∈ live).map fun rule => .builds i rule.2

theorem mem_builds {rules : List (Nat × Recipe)} {d : Deed} :
    d ∈ builds live i rules.zipIdx ↔ ∃ position c : Nat, (rules.map Prod.fst)[position]? = some c ∧
      (c : Int) ∈ live ∧ d = .builds i position := by
  simp only [builds, List.mem_map, List.mem_filter, decide_eq_true_eq, Prod.exists,
    List.mem_zipIdx_iff_getElem?, List.getElem?_map, Option.map_eq_some_iff]
  constructor
  · rintro ⟨c, recipe, position, ⟨hrule, hc⟩, rfl⟩
    exact ⟨position, c, ⟨_, _, hrule, rfl⟩, hc, rfl⟩
  · rintro ⟨position, c, ⟨_, recipe, hrule, rfl⟩, hc, rfl⟩
    exact ⟨_, recipe, position, ⟨hrule, hc⟩, rfl⟩

/-- For each position, a gradient is built at most once. -/
theorem nodup_builds (rules : List (Nat × Recipe)) : (builds live i rules.zipIdx).Nodup := by
  have hall : (rules.zipIdx.map fun rule => Deed.builds i rule.2).Nodup := by
    change (rules.zipIdx.map (Deed.builds i ∘ Prod.snd)).Nodup
    rw [← List.map_map, List.zipIdx_map_snd]
    refine List.Nodup.map (fun p q hpq => ?_) List.nodup_range'
    exact (Deed.builds.inj hpq).2
  exact hall.sublist (List.filter_sublist.map _)

theorem deeds_of_sendNoted_ok {rules : List ((Nat × Recipe) × Nat)} {s : Pass}
    {deeds : List Deed} {p : Pass × List Deed}
    (h : sendNoted live i g rules (s, deeds) = .ok () p) :
    p.2 = deeds ++ builds live i rules := by
  induction rules generalizing s deeds with
  | nil =>
    cases h
    exact (List.append_nil _).symm
  | cons rule rules ih =>
    obtain ⟨_, q, hrule, hrest⟩ := exists_of_bind_ok h
    obtain ⟨⟨x, recipe⟩, position⟩ := rule
    have hq : q.2 = deeds ++ if (x : Int) ∈ live then [.builds i position] else [] := by
      dsimp only at hrule
      split at hrule
      · rename_i hx
        obtain ⟨_, q₁, hnote, hsend⟩ := exists_of_bind_ok hrule
        cases hnote
        obtain ⟨k, u, -, hsend⟩ := exists_of_quietly_bind_ok hsend
        obtain ⟨v, -, rfl⟩ := exists_of_quietly_ok hsend
        rw [if_pos hx]
      · rename_i hx
        cases hrule
        rw [if_neg hx, List.append_nil]
    obtain ⟨t, deeds'⟩ := q
    obtain rfl : deeds' = _ := hq
    rw [ih hrest, builds, builds, List.filter_cons, List.append_assoc]
    split
    · rename_i hx
      rw [if_pos (by simpa using hx)]
      rfl
    · rename_i hx
      rw [if_neg (by simpa using hx)]
      rfl

theorem deeds_of_forwardNoted_ok {s : Pass} {deeds : List Deed} {p : Pass × List Deed}
    (h : forwardNoted live i g k n kind (s, deeds) = .ok () p) :
    p.2 = deeds ∨ p.2 = deeds ++ .applies i :: builds live i n.form.rules.zipIdx := by
  simp only [forwardNoted] at h
  split at h
  · obtain ⟨t, -, rfl⟩ := exists_of_quietly_ok h
    exact Or.inl rfl
  · split at h
    · obtain ⟨t, -, rfl⟩ := exists_of_quietly_ok h
      exact Or.inl rfl
    · obtain ⟨_, q, hnote, h⟩ := exists_of_bind_ok h
      cases hnote
      refine Or.inr ((deeds_of_sendNoted_ok h).trans ?_)
      rw [List.append_assoc, List.singleton_append]

theorem quietly_take (i : Nat) (s : Pass) (deeds : List Deed) : quietly (take i) (s, deeds) =
    .ok (s.waiting i).reverse ({ s with pending := s.pending.erase (i : Int) }, deeds) := rfl

/-- When a live node is met, its contributions are summed; its rules are applied, or not. -/
theorem deeds_of_meetNoted_ok {i : Nat} {s : Pass} {deeds : List Deed} {p : Pass × List Deed}
    (hlive : (i : Int) ∈ live) (hwait : s.waiting i ≠ []) (hn : s.arena.node? i = some n)
    (h : meetNoted live i (s, deeds) = .ok () p) :
    ∃ more, p.2 = deeds ++ .sums i :: more ∧
      more.Sublist (.applies i :: builds live i n.form.rules.zipIdx) := by
  have hgo : ¬((s.waiting i).reverse.isEmpty || !live.contains (i : Int)) = true := by
    simp [hwait, hlive]
  rw [meetNoted, bind_of_ok (quietly_take i s deeds), if_neg hgo] at h
  obtain ⟨_, p₂, hnote, h⟩ := exists_of_bind_ok h
  cases hnote
  obtain ⟨g, s₁, hsum, h⟩ := exists_of_quietly_bind_ok h
  obtain ⟨sum, s₂, htotal, h⟩ := exists_of_quietly_bind_ok h
  obtain ⟨m, s₃, hnode, h⟩ := exists_of_quietly_bind_ok h
  obtain ⟨kind, s₄, -, h⟩ := exists_of_quietly_bind_ok h
  -- the node is still the same after sums were built
  have hkept : s.arena.Extends s₂.arena := by
    have hfirst := (building_keeps (Arena.sum_keeps _)).of_ok hsum
    exact hfirst.1.1.trans ((total_keeps i g).of_ok htotal).1.1
  obtain ⟨b, hm, -⟩ := exists_of_building_ok hnode
  obtain ⟨hm, -⟩ := Arena.of_nodeAt_ok hm
  rw [Arena.at?_ofNat, hkept i n hn] at hm
  obtain rfl := Option.some.inj hm
  rcases deeds_of_forwardNoted_ok h with hp | hp
  · exact ⟨[], hp, List.nil_sublist _⟩
  · refine ⟨_, ?_, List.Sublist.refl _⟩
    rw [hp, List.append_assoc, List.singleton_append]

/-- When a node is passed over, nothing is noted. -/
theorem meetNoted_skip {i : Nat} {s : Pass} (h : (i : Int) ∉ live) (deeds : List Deed) :
    meetNoted live i (s, deeds) =
      .ok () ({ s with pending := s.pending.erase (i : Int) }, deeds) := by
  have hstop : ((s.waiting i).reverse.isEmpty || !live.contains (i : Int)) = true := by
    simp [h]
  rw [meetNoted, bind_of_ok (quietly_take i s deeds), if_pos hstop]
  rfl

end Pass

/-! ### The whole sweep -/

/-- What may be done in a pass: something for a live node, building only for a live operand. -/
def Arena.Allows (a : Arena) (asked : Nat → Prop) (y : Nat) : Deed → Prop
  | .sums i | .applies i => ∃ n : Nat, i = n ∧ a.Live asked y n
  | .builds i position => ∃ n c : Nat, i = n ∧ a.Live asked y n ∧
      (a.operands n)[position]? = some c ∧ a.Live asked y c

/-- Growing an arena does not change what may be done in a pass. -/
theorem Arena.allows_of_extends {a b : Arena} (ha : a.WellFormed) (hab : a.Extends b)
    {asked : Nat → Prop} {y : Nat} (hy : y < a.size) (d : Deed) :
    b.Allows asked y d ↔ a.Allows asked y d := by
  cases d with
  | sums i => simp only [Allows, live_of_extends ha hab hy]
  | applies i => simp only [Allows, live_of_extends ha hab hy]
  | builds i position =>
    simp only [Allows, live_of_extends ha hab hy]
    refine exists_congr fun n => exists_congr fun c => and_congr_right fun _ =>
      and_congr_right fun hn => ?_
    have hlt := Nat.lt_of_le_of_lt (hn.1.le fun _ _ hc => ha.operand_lt hc) hy
    rw [operands_of_extends hab hlt]

namespace Plan

variable (π : Plan)

/-- What was noted before the nodes that are left are met. -/
structure Did (todo : List Nat) (deeds : List Deed) : Prop where
  nodup : deeds.Nodup
  met : ∀ d ∈ deeds, ∃ n : Nat, d.node = n ∧ n ∉ todo
  allowed : ∀ d ∈ deeds, π.arena.Allows π.asked π.output d
  summed : ∀ n, π.Live n → n ∉ todo → Deed.sums n ∈ deeds

variable {π} {sh : Shape} {i : Nat} {rest : List Nat} {deeds more : List Deed}
  {live : Std.HashSet Int}

theorem did_nil {todo : List Nat} (hall : ∀ n, π.Reached n → n ∈ todo) : π.Did todo [] where
  nodup := List.nodup_nil
  met := by simp
  allowed := by simp
  summed n hn hnot := absurd (hall n hn.reached) hnot

/-- For a node that is not live, nothing is done. -/
theorem Did.skip (h : π.Did (i :: rest) deeds) (hi : ¬π.Live i) : π.Did rest deeds where
  nodup := h.nodup
  met d hd := by
    obtain ⟨n, hn, hnot⟩ := h.met d hd
    exact ⟨n, hn, fun hmem => hnot (List.mem_cons_of_mem i hmem)⟩
  allowed := h.allowed
  summed n hn hnot := h.summed n hn fun hmem => by
    rcases List.mem_cons.mp hmem with rfl | hmem
    · exact hi hn
    · exact hnot hmem

/-- For a live node, its contributions are summed first, and then no more is done than its rules
give for its live operands. -/
theorem Did.meet (h : π.Did (i :: rest) deeds) (htodo : π.Remaining (i :: rest))
    (hlive : ∀ j : Nat, (j : Int) ∈ live ↔ π.Live j) (hi : π.Live i) {node : Node}
    (hnode : π.arena.node? i = some node)
    (hmore : more.Sublist (.applies i :: Pass.builds live i node.form.rules.zipIdx)) :
    π.Did rest (deeds ++ .sums i :: more) := by
  have hfirst : ∀ d ∈ Deed.sums i :: more, d.node = i ∧
      π.arena.Allows π.asked π.output d := by
    intro d hd
    rcases List.mem_cons.mp hd with rfl | hd
    · exact ⟨rfl, i, rfl, hi⟩
    · rcases List.mem_cons.mp (hmore.subset hd) with rfl | hd
      · exact ⟨rfl, i, rfl, hi⟩
      · obtain ⟨position, c, hc, hclive, rfl⟩ := Pass.mem_builds.mp hd
        rw [Form.rules_operands] at hc
        refine ⟨rfl, i, c, rfl, hi, ?_, (hlive c).mp hclive⟩
        rw [Arena.operands_of_node? hnode]
        exact hc
  have hrest : i ∉ rest := fun hmem => Nat.lt_irrefl i (htodo.lt_head i hmem)
  refine ⟨List.nodup_append.mpr ⟨h.nodup, ?_, ?_⟩, fun d hd => ?_, fun d hd => ?_,
    fun n hn hnot => ?_⟩
  · have hall : (Deed.sums i :: .applies i :: Pass.builds live i node.form.rules.zipIdx).Nodup := by
      refine List.nodup_cons.mpr ⟨?_, List.nodup_cons.mpr ⟨?_, Pass.nodup_builds _⟩⟩
      · simp [Pass.mem_builds]
      · simp [Pass.mem_builds]
    exact hall.sublist (hmore.cons_cons _)
  · -- what was done before was done for nodes that were met before
    rintro d hd d' hd' rfl
    obtain ⟨n, hn, hnot⟩ := h.met d hd
    rw [(hfirst d hd').1] at hn
    exact hnot (Int.natCast_inj.mp hn ▸ List.mem_cons_self ..)
  · rcases List.mem_append.mp hd with hd | hd
    · obtain ⟨n, hn, hnot⟩ := h.met d hd
      exact ⟨n, hn, fun hmem => hnot (List.mem_cons_of_mem i hmem)⟩
    · exact ⟨i, (hfirst d hd).1, hrest⟩
  · rcases List.mem_append.mp hd with hd | hd
    · exact h.allowed d hd
    · exact (hfirst d hd).2
  · by_cases hni : n = i
    · subst hni
      exact List.mem_append_right _ (List.mem_cons_self ..)
    · exact List.mem_append_left _ (h.summed n hn (List.not_mem_cons_of_ne_of_not_mem hni hnot))

/-- What is done in a whole sweep. -/
theorem did_sweep {R : Type} [CommRing R] {F : Functions R} {ρ : Nat → R} {todo : List Nat}
    {s t : Pass} (hs : Sweeping F ρ π sh todo s) (hready : π.Ready sh) (htodo : π.Remaining todo)
    (hlive : ∀ j : Nat, (j : Int) ∈ live ↔ π.Live j) (h : π.Did todo deeds)
    (hok : (todo.map Int.ofNat).forM (Pass.meet live) s = .ok () t) :
    ∃ deeds', (todo.map Int.ofNat).forM (Pass.meetNoted live) (s, deeds) = .ok () (t, deeds') ∧
      π.Did [] deeds' := by
  induction todo generalizing s deeds with
  | nil =>
    cases hok
    exact ⟨deeds, rfl, h⟩
  | cons i rest ih =>
    obtain ⟨u, hmeet, hu⟩ := hs.step hready htodo hlive
    have hok : (rest.map Int.ofNat).forM (Pass.meet live) u = .ok () t :=
      (forM_cons_of_ok (g := Pass.meet live) hmeet).symm.trans hok
    have hnoted : ∃ deeds', Pass.meetNoted live i (s, deeds) = .ok () (u, deeds') ∧
        π.Did rest deeds' := by
      obtain ⟨deeds', hnoted⟩ := (Pass.erases_meetNoted live i).ok hmeet deeds
      refine ⟨deeds', hnoted, ?_⟩
      by_cases hi : π.Live i
      · obtain ⟨node, hnode, -⟩ := hready.exists_node hi.reached
        obtain ⟨more, hdeeds, hmore⟩ := Pass.deeds_of_meetNoted_ok ((hlive i).mpr hi)
          (hs.waiting_ne_nil hready htodo hi) (hs.kept i node hnode) hnoted
        obtain rfl : deeds' = _ := hdeeds
        exact h.meet htodo hlive hi hnode hmore
      · rw [Pass.meetNoted_skip fun hmem => hi ((hlive i).mp hmem)] at hnoted
        cases hnoted
        exact h.skip hi
    obtain ⟨deeds', hnoted, hdid⟩ := hnoted
    obtain ⟨deeds'', hrest, hdone⟩ := ih hu htodo.tail hdid hok
    exact ⟨deeds'', (forM_cons_of_ok (g := Pass.meetNoted live) hnoted).trans hrest, hdone⟩

end Plan

/-! ### A whole pass -/

namespace Differentiation

/-- The pass proper, with notes. -/
def runNoted (output seed : Int) (targets : Option (Std.HashSet Int)) :
    Noted Differentiation Outcome :=
  fun (⟨arena, context⟩, deeds) =>
    match arena.toposort? output with
    | none => .error (.absent output) (⟨arena, context⟩, deeds)
    | some order =>
      let live := arena.live targets order
      let start : Pass :=
        ⟨arena, context.grads, (∅ : Std.HashMap Int (List Int)).insert output [seed], #[]⟩
      let context := { context with grads := {} }
      match order.reverse.forM (Pass.meetNoted live) (start, deeds) with
      | .ok () (⟨arena, grads, _, found⟩, deeds) =>
        .ok ⟨found.toList, live.size⟩ (⟨arena, { context with grads }⟩, deeds)
      | .error e (⟨arena, grads, _, _⟩, deeds) => .error e (⟨arena, { context with grads }⟩, deeds)

/-- A pass that notes what it does. -/
def backwardNoted (output : Operand) (seed : Option Operand) (wrt : Option (List Operand)) :
    Noted Differentiation Outcome := do
  if !(← quietly get).context.requiresGrad then throw .gradientDisabled
  let e ← quietly (bind output)
  let seed ← quietly (seedFor e.index seed)
  let targets ← quietly (targets? wrt)
  runNoted e.index seed targets

theorem erases_runNoted (output seed : Int) (targets : Option (Std.HashSet Int)) :
    Erases (runNoted output seed targets) (run output seed targets) := by
  rintro ⟨arena, context⟩ deeds
  simp only [runNoted, run]
  cases arena.toposort? output with
  | none => exact .error _ rfl
  | some order =>
    have hsweep := Erases.forM (Pass.erases_meetNoted (arena.live targets order)) order.reverse
      ⟨arena, context.grads, (∅ : Std.HashMap Int (List Int)).insert output [seed], #[]⟩ deeds
    dsimp only
    generalize order.reverse.forM (Pass.meetNoted (arena.live targets order)) _ = x at hsweep
    generalize order.reverse.forM (Pass.meet (arena.live targets order)) _ = y at hsweep
    cases hsweep with
    | ok _ hst =>
      subst hst
      exact .ok rfl rfl
    | error e hst =>
      subst hst
      exact .error e rfl

/-- Without its notes, the pass is the one that notes nothing. -/
theorem erases_backwardNoted (output : Operand) (seed : Option Operand)
    (wrt : Option (List Operand)) :
    Erases (backwardNoted output seed wrt) (backward output seed wrt) := by
  have hrest : ∀ e : Expr, Erases
      (do
        let seed ← quietly (seedFor e.index seed)
        let targets ← quietly (targets? wrt)
        runNoted e.index seed targets)
      (pass e.index seed wrt) := fun e => by
    refine (erases_quietly _).bind fun i => ?_
    exact (erases_quietly _).bind fun targets => erases_runNoted _ _ _
  refine (erases_quietly _).bind fun s => ?_
  cases wrt with
  | none =>
    dsimp only
    split
    · exact (Erases.throw _).bind fun _ => (erases_quietly _).bind hrest
    · exact (erases_quietly _).bind hrest
  | some ps =>
    dsimp only
    split
    · exact (Erases.throw _).bind fun _ => (erases_quietly _).bind hrest
    · exact (erases_quietly _).bind hrest

variable {s : Differentiation} {output : Operand} {seed : Option Operand}
  {wrt : Option (List Operand)} {e : Expr} {node : Node} {y : Nat}

/-- All that is checked of an accepted pass before its sweep. -/
theorem Accepts.checked (h : Accepts s output seed wrt e node) :
    ∃ targets, (∀ p, AskedFor wrt p ↔ Arena.AskedIn targets p) ∧
      bind output s = .ok e ⟨s.arena, { s.context with arena := some e.arena }⟩ ∧
      seedFor e.index seed ⟨s.arena, { s.context with arena := some e.arena }⟩ =
        .ok (seedIndex s.arena seed)
          ⟨seeded s.arena node.shape seed, { s.context with arena := some e.arena }⟩ ∧
      targets? wrt ⟨seeded s.arena node.shape seed, { s.context with arena := some e.arena }⟩ =
        .ok targets ⟨seeded s.arena node.shape seed, { s.context with arena := some e.arena }⟩ := by
  rcases bind_cases output s with ⟨e', hadmits, hbind⟩ | ⟨hno, -⟩
  · obtain rfl := Operand.expr.inj (h.admits.1.symm.trans hadmits.1)
    rcases seedFor_cases (s := ⟨s.arena, { s.context with arena := some e.arena }⟩) rfl h.node
      seed with ⟨-, hseed⟩ | ⟨hno, -⟩
    · rcases targets?_cases (s := ⟨seeded s.arena node.shape seed,
        { s.context with arena := some e.arena }⟩) rfl wrt with ⟨-, targets, hok, hasked⟩ | ⟨hno, -⟩
      · exact ⟨targets, hasked, hbind, hseed, hok⟩
      · exact absurd h.targets hno
    · exact absurd h.fits hno
  · exact absurd h.admits (hno e)

/-- The sweep of a pass with its notes is the pass proper. -/
theorem runNoted_of_sweep {π : Plan} {c : Context} (hc : c.grads = π.grads)
    {targets : Option (Std.HashSet Int)} {order : List Nat}
    (horder : π.arena.toposort? π.output = some (order.map Int.ofNat)) {p : Pass}
    {deeds deeds' : List Deed}
    (hok : (order.reverse.map Int.ofNat).forM
      (Pass.meetNoted (π.arena.live targets (order.map Int.ofNat))) (opening π, deeds) =
        .ok () (p, deeds')) :
    runNoted π.output π.seed targets (⟨π.arena, c⟩, deeds) =
      .ok ⟨p.found.toList, (π.arena.live targets (order.map Int.ofNat)).size⟩
        (⟨p.arena, { c with grads := p.grads }⟩, deeds') := by
  simp only [runNoted]
  rw [horder]
  dsimp only
  rw [← List.map_reverse, hc]
  rw [opening] at hok
  rw [hok]

/-- In an accepted pass all is done as often as it should be, and the arena grows with the number of
live edges. -/
theorem Accepts.backwardNoted_ok (h : Accepts s output seed wrt e node) (hy : e.index = y)
    (hready : (s.plan y node.shape seed wrt).Ready node.shape) :
    ∃ o s' deeds, backwardNoted output seed wrt (s, []) = .ok o (s', deeds) ∧
      (s.plan y node.shape seed wrt).Did [] deeds ∧
      o.liveCount = ((seeded s.arena node.shape seed).liveNodes (AskedFor wrt) y).card ∧
      s'.arena.size ≤ (seeded s.arena node.shape seed).size +
        4 * (seeded s.arena node.shape seed).liveEdges (AskedFor wrt) y +
        ((seeded s.arena node.shape seed).liveNodes (AskedFor wrt) y).card ∧
      (¬(seeded s.arena node.shape seed).Live (AskedFor wrt) y y →
        s'.arena = seeded s.arena node.shape seed) := by
  obtain ⟨targets, hasked, hbind, hseed, htargets⟩ := h.checked
  obtain ⟨order, horder, hschedule, hlive⟩ :=
    exists_schedule (π := s.plan y node.shape seed wrt) hready hasked
  -- that the sweep succeeds does not depend on the values
  have hopening := sweeping_opening (R := Int) (F := ⟨id, id, id, id⟩) (ρ := fun _ => 0) hready
    fun n => (hschedule.mem n).mpr
  obtain ⟨p, hok, -⟩ := hopening.sweep hready hschedule.remaining hlive
  obtain ⟨deeds, hnoted, hdid⟩ := Plan.did_sweep hopening hready hschedule.remaining hlive
    (Plan.did_nil fun n => (hschedule.mem n).mpr) hok
  have hrun := runNoted_of_sweep (π := s.plan y node.shape seed wrt)
    (c := { s.context with arena := some e.arena }) rfl horder hnoted
  have hnatural : ∀ x ∈ (s.plan y node.shape seed wrt).arena.live targets (order.map Int.ofNat),
      ∃ j : Nat, x = j := by
    intro x hx
    obtain ⟨j, -, rfl⟩ := List.mem_map.mp (Arena.mem_of_mem_live hx)
    exact ⟨j, rfl⟩
  refine ⟨_, _, deeds, .trans ?_ hrun, hdid, (Plan.card_liveNodes hready hlive hnatural).symm,
    Plan.size_of_sweep_ok hready hschedule hlive hok, fun hdead =>
    Plan.arena_of_sweep_ok (fun j _ hj => hdead ((hlive j).mp hj).output) hok⟩
  have hget : quietly get (s, []) = .ok s (s, []) := rfl
  have hgo : ¬(!s.context.requiresGrad) = true := by simp [h.enabled]
  rw [backwardNoted, bind_of_ok hget, if_neg hgo]
  refine (bind_of_ok (quietly_of_ok hbind _)).trans ((bind_of_ok (quietly_of_ok hseed _)).trans
    ((bind_of_ok (quietly_of_ok htargets _)).trans ?_))
  rw [hy]
  rfl

theorem size_seeded (a : Arena) (sh : Shape) (seed : Option Operand) :
    (seeded a sh seed).size ≤ a.size + 1 := by
  cases seed with
  | none => exact Nat.le_of_eq (Arena.size_push ..)
  | some o => exact Nat.le_succ a.size

/-- The same in terms of the arena before a default seed is appended, which is not live. -/
theorem Accepts.backwardNoted_accounts (h : Accepts s output seed wrt e node) (hy : e.index = y)
    (hready : (s.plan y node.shape seed wrt).Ready node.shape) (hregular : s.arena.Regular) :
    ∃ o s' deeds, backwardNoted output seed wrt (s, []) = .ok o (s', deeds) ∧
      o.liveCount = (s.arena.liveNodes (AskedFor wrt) y).card ∧
      s'.arena.size ≤ s.arena.size +
        (1 + 4 * s.arena.liveEdges (AskedFor wrt) y + o.liveCount) ∧
      (¬s.arena.Live (AskedFor wrt) y y → s'.arena = seeded s.arena node.shape seed) ∧
      deeds.Nodup ∧ (∀ n, s.arena.Live (AskedFor wrt) y n → Deed.sums n ∈ deeds) ∧
      ∀ d ∈ deeds, s.arena.Allows (AskedFor wrt) y d := by
  obtain ⟨o, s', deeds, hok, hdid, hcount, hsize, hdead⟩ := h.backwardNoted_ok hy hready
  have hwell := hregular.wellFormed
  have hwell' := (regular_seeded hregular node.shape seed).wellFormed
  have hkept := extends_seeded s.arena node.shape seed
  have hlt : y < s.arena.size := by
    have hnode := h.node
    rw [hy, Arena.at?_ofNat] at hnode
    exact Arena.lt_size_of_node? hnode
  rw [Arena.liveNodes_of_extends hwell hwell' hkept hlt] at hcount hsize
  rw [Arena.liveEdges_of_extends hwell hwell' hkept hlt] at hsize
  have hseeded := size_seeded s.arena node.shape seed
  refine ⟨o, s', deeds, hok, hcount, by omega, fun hnot => ?_, hdid.nodup, fun n hn => ?_,
    fun d hd => ?_⟩
  · exact hdead fun hlive => hnot ((Arena.live_of_extends hwell hkept hlt).mp hlive)
  · exact hdid.summed n ((Arena.live_of_extends hwell hkept hlt).mpr hn) (by simp)
  · exact (Arena.allows_of_extends hwell hkept hlt d).mp (hdid.allowed d hd)

end Differentiation

end TensorGraph
