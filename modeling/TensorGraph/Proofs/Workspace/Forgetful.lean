import Mathlib.Data.Finset.Card
import TensorGraph.Proofs.Workspace.Collecting

/-!
# Walks that forget

A walk that forgets what it has met goes through an object as often as something leads to it, and
through a cycle forever. Where no object leads back to itself it ends, and the parameters that are
collected are those that it gathers, each where it occurs first.
-/

namespace TensorGraph

namespace Heap

/-- An object leads to another one, on whatever path. -/
def LeadsTo (h : Heap) (a b : Address) : Prop := ∃ path, h.Leads "" a path b

/-- Nothing that an object leads to leads back to itself. -/
def Acyclic (h : Heap) (a : Address) : Prop :=
  ∀ b name c, h.LeadsTo a b → h.Holds b name c → ¬h.LeadsTo c b

variable {h : Heap} {a b c : Address} {name : String}

theorem LeadsTo.refl (h : Heap) (a : Address) : h.LeadsTo a a := ⟨"", .here "" a⟩

theorem LeadsTo.of_leads {path path' : String} (hb : h.Leads path a path' b) : h.LeadsTo a b :=
  hb.exists_rebase ""

theorem LeadsTo.part (hb : h.Holds a name b) (hc : h.LeadsTo b c) : h.LeadsTo a c := by
  obtain ⟨path, hc⟩ := hc
  obtain ⟨path', hc⟩ := hc.exists_rebase (joinName "" name)
  exact ⟨path', .part hb hc⟩

theorem Leads.leadsTo_of {path path' : String} (hb : h.Leads path a path' b)
    (hc : h.LeadsTo b c) : h.LeadsTo a c := by
  induction hb with
  | here => exact hc
  | part hholds _ ih => exact .part hholds (ih hc)

theorem LeadsTo.trans (hb : h.LeadsTo a b) (hc : h.LeadsTo b c) : h.LeadsTo a c := by
  obtain ⟨path, hb⟩ := hb
  exact hb.leadsTo_of hc

theorem Acyclic.of_holds (hacyclic : h.Acyclic a) (hb : h.Holds a name b) : h.Acyclic b :=
  fun c name' d hc => hacyclic c name' d (.part hb hc)

open Classical in
/-- The addresses of the objects to which an object leads. -/
noncomputable def reach (h : Heap) (a : Address) : Finset Address :=
  (Finset.range h.size).filter fun b => h.LeadsTo a b

theorem mem_reach : b ∈ h.reach a ↔ b < h.size ∧ h.LeadsTo a b := by
  simp [reach]

theorem card_reach_le (h : Heap) (a : Address) : (h.reach a).card ≤ h.size := by
  have hsub : h.reach a ⊆ Finset.range h.size := fun b hb =>
    Finset.mem_range.mpr (mem_reach.mp hb).1
  exact (Finset.card_le_card hsub).trans (Finset.card_range h.size).le

/-- The parts of an object lead to less where it is not among that. -/
theorem Acyclic.card_reach_lt (hacyclic : h.Acyclic a) (hsize : a < h.size)
    (hb : h.Holds a name b) : (h.reach b).card < (h.reach a).card := by
  refine Finset.card_lt_card (Finset.ssubset_iff_subset_ne.mpr ⟨fun c hc => ?_, fun heq => ?_⟩)
  · obtain ⟨hlt, hleads⟩ := mem_reach.mp hc
    exact mem_reach.mpr ⟨hlt, .part hb hleads⟩
  · have ha : a ∈ h.reach b := heq ▸ mem_reach.mpr ⟨hsize, .refl h a⟩
    exact hacyclic a name b (.refl h a) hb (mem_reach.mp ha).2

end Heap

namespace Workspace

/-- Gathers the parameters below all handles, one object after the other and as often as it meets
them, at most `depth` objects deep. -/
def walkWithin (w : Workspace) : Nat → Address → Option (List Expr)
  | 0, _ => none
  | depth + 1, a =>
    match w.heap.expr? a with
    | some x => some (w.parametersUnder x)
    | none => List.flatten <$> (w.heap.parts a).mapM fun part => walkWithin w depth part.2

variable {w : Workspace} {a b : Address} {t t' : Tour}

/-- Objects that hold nothing but what stands before them do not lead back to themselves. -/
theorem acyclic_of_closed (objects : List Address) (ha : a ∈ objects)
    (hclosed : ∀ b ∈ objects, w.Ordinary b ∧ ∀ part ∈ w.heap.parts b, part.2 ∈ objects)
    (hbefore : ∀ b ∈ objects, ∀ part ∈ w.heap.parts b, part.2 < b) : w.heap.Acyclic a := by
  have hparts : ∀ {b c : Address} {name : String}, b ∈ objects → w.heap.Holds b name c →
      (name, c) ∈ w.heap.parts b := fun hb hc => (hclosed _ hb).1.mem_parts hc
  have hle : ∀ {path path' : String} {b c : Address}, w.heap.Leads path b path' c →
      b ∈ objects → c ≤ b := by
    intro path path' b c hc hb
    induction hc with
    | here => exact Nat.le_refl _
    | part hholds _ ih =>
      have hpart := hparts hb hholds
      exact Nat.le_trans (ih ((hclosed _ hb).2 _ hpart)) (Nat.le_of_lt (hbefore _ hb _ hpart))
  rintro b name c ⟨path, hb⟩ hc ⟨path', hback⟩
  have hmem := mem_of_leads hclosed ha hb
  have hpart := hparts hmem hc
  exact absurd (hle hback ((hclosed b hmem).2 _ hpart)) (Nat.not_le.mpr (hbefore b hmem _ hpart))

/-! ### The end of a walk -/

theorem exists_of_mem_mapM {α β : Type} {f : α → Option β} {xs : List α} {ys : List β}
    (h : xs.mapM f = some ys) {y : β} (hy : y ∈ ys) : ∃ x ∈ xs, f x = some y := by
  induction xs generalizing ys with
  | nil =>
    cases h
    cases hy
  | cons x xs ih =>
    rw [List.mapM_cons] at h
    obtain ⟨y', hy', h⟩ := Option.bind_eq_some_iff.mp h
    obtain ⟨ys', hys', h⟩ := Option.bind_eq_some_iff.mp h
    cases h
    rcases List.mem_cons.mp hy with rfl | hy
    · exact ⟨x, List.mem_cons_self .., hy'⟩
    · obtain ⟨x', hx', hf⟩ := ih hys' hy
      exact ⟨x', List.mem_cons_of_mem x hx', hf⟩

/-- A walk that may go deeper than an object leads ends. -/
theorem exists_walkWithin (h : w.Searchable a) (hacyclic : w.heap.Acyclic a) {depth : Nat}
    (hdepth : (w.heap.reach a).card < depth) : ∃ es, w.walkWithin depth a = some es := by
  induction depth generalizing a with
  | zero => omega
  | succ depth ih =>
    simp only [walkWithin]
    cases hx : w.heap.expr? a with
    | some e => exact ⟨_, rfl⟩
    | none =>
      have hparts : ∃ ess,
          (w.heap.parts a).mapM (fun part => w.walkWithin depth part.2) = some ess := by
        by_cases hsize : a < w.heap.size
        · refine exists_mapM fun part hpart => ?_
          have hholds := h.ordinary.holds hx hpart
          have hless := hacyclic.card_reach_lt hsize hholds
          exact ih (h.of_holds hholds) (hacyclic.of_holds hholds) (by omega)
        · rw [parts_of_absent (Nat.not_lt.mp hsize)]
          exact ⟨[], rfl⟩
      obtain ⟨ess, hess⟩ := hparts
      exact ⟨ess.flatten, by rw [hess]; rfl⟩

/-! ### What a walk gathers -/

/-- A tour has seen all handles to which an object leads. -/
def Covers (w : Workspace) (t : Tour) (a : Address) : Prop :=
  ∀ c x, w.heap.LeadsTo a c → w.heap.get? c = some (.expr x) →
    w.parametersUnder x ⊆ w.collected t

/-- Of the objects that a tour has met it has seen all handles, if an object leads to them. -/
def Settled (w : Workspace) (t : Tour) (a : Address) : Prop :=
  ∀ b ∈ t.objects, w.heap.expr? b = none → w.heap.LeadsTo a b → w.Covers t b

theorem Searchable.of_leadsTo (h : w.Searchable a) (hb : w.heap.LeadsTo a b) : w.Searchable b := by
  obtain ⟨path, hb⟩ := hb
  intro path' path'' c hc
  obtain ⟨path₁, hc⟩ := hb.leadsTo_of (.of_leads hc)
  exact h "" path₁ c hc

/-- What a walk gathers is below a handle to which the object leads. -/
theorem walkWithin_sound {depth : Nat} {es : List Expr} (h : w.Searchable a)
    (hes : w.walkWithin depth a = some es) :
    ∀ e ∈ es, ∃ c x, w.heap.LeadsTo a c ∧ w.heap.get? c = some (.expr x) ∧
      e ∈ w.parametersUnder x := by
  induction depth generalizing a es with
  | zero => cases hes
  | succ depth ih =>
    intro e he
    simp only [walkWithin] at hes
    cases hx : w.heap.expr? a with
    | some x =>
      rw [hx] at hes
      cases hes
      exact ⟨a, x, .refl _ a, Heap.expr?_eq_some_iff.mp hx, he⟩
    | none =>
      rw [hx] at hes
      obtain ⟨ess, hess, rfl⟩ := Option.map_eq_some_iff.mp hes
      obtain ⟨es, hmem, he⟩ := List.mem_flatten.mp he
      obtain ⟨part, hpart, hwalk⟩ := exists_of_mem_mapM hess hmem
      have hholds := h.ordinary.holds hx hpart
      obtain ⟨c, x, hleads, ho, he⟩ := ih (h.of_holds hholds) hwalk e he
      exact ⟨c, x, .part hholds hleads, ho, he⟩

/-- A tour goes through all that leads from an object it has gone through to handles, if it had seen
the handles of what it had met before. -/
theorem Explored.covers {roots : Parts} (ht : w.Explored roots t t') (h : w.Searchable a)
    (hvisited : w.Visited t' a) (hsettled : w.Settled t a) : w.Covers t' a := by
  have hmono : w.collected t ⊆ w.collected t' := fun e he => by
    obtain ⟨x, hx, he⟩ := List.mem_flatMap.mp he
    exact List.mem_flatMap.mpr ⟨x, ht.sights_subset hx, he⟩
  have hall : ∀ {path path' : String} {b c : Address} {x : Expr}, w.heap.Leads path b path' c →
      w.heap.get? c = some (.expr x) → w.Searchable b → w.Settled t b → w.Visited t' b →
        w.parametersUnder x ⊆ w.collected t' := by
    intro path path' b c x hb ho hsearchable hsettled hvisited
    induction hb with
    | here path c =>
      simp only [Visited, Heap.expr?_eq_some_iff.mpr ho] at hvisited
      obtain ⟨path, hseen⟩ := hvisited
      exact fun e he => List.mem_flatMap.mpr ⟨_, hseen, he⟩
    | @part path path' name b b' c hholds hrest ih =>
      have hne := hholds.expr?_eq_none
      simp only [Visited, hne] at hvisited
      rcases ht.closed b hvisited with hold | hparts
      · have hcovers := hsettled b hold hne (.refl _ b)
        exact fun e he => hmono (hcovers c x (.part hholds (.of_leads hrest)) ho he)
      · have hmem := hsearchable.ordinary.mem_parts hholds
        exact ih ho (hsearchable.of_holds hholds)
          (fun d hd hdx hleads => hsettled d hd hdx (.part hholds hleads)) (hparts _ hmem)
  rintro c x ⟨path', hc⟩ ho
  exact hall hc ho h hsettled hvisited

/-! ### What a tour adds -/

/-- What a tour sees that is new is what the walk gathers that is new. -/
def Gains (w : Workspace) (tour : Tour → Option Tour) (es : List Expr) (a : Address) : Prop :=
  ∀ t t', tour t = some t' → w.Settled t a →
    (w.collected t').eraseDups = (w.collected t ++ es).eraseDups

theorem foldlM_gains {depth depth' : Nat} {path : String} {parts : Parts}
    (h : ∀ part ∈ parts, w.Searchable part.2)
    (hgains : ∀ part ∈ parts, ∀ es, w.walkWithin depth' part.2 = some es →
      w.Gains (w.tourWithin depth · (joinName path part.1) part.2) es part.2)
    {ess : List (List Expr)}
    (hess : parts.mapM (fun part => w.walkWithin depth' part.2) = some ess) {t t' : Tour}
    (ht : parts.foldlM (fun t part => w.tourWithin depth t (joinName path part.1) part.2) t =
      some t')
    (hsettled : ∀ part ∈ parts, w.Settled t part.2) :
    (w.collected t').eraseDups = (w.collected t ++ ess.flatten).eraseDups := by
  induction parts generalizing t ess with
  | nil =>
    rw [List.mapM_nil] at hess
    cases ht
    cases hess
    rw [List.flatten_nil, List.append_nil]
  | cons part parts ih =>
    rw [List.mapM_cons] at hess
    obtain ⟨es, hes, hess⟩ := Option.bind_eq_some_iff.mp hess
    obtain ⟨ess, hrest, hess⟩ := Option.bind_eq_some_iff.mp hess
    cases hess
    rw [List.foldlM_cons] at ht
    obtain ⟨t₁, ht₁, ht⟩ := Option.bind_eq_some_iff.mp ht
    have hmem := List.mem_cons_self (a := part) (l := parts)
    have hfirst := hgains part hmem es hes t t₁ ht₁ (hsettled part hmem)
    have hexplored := tourWithin_explored (h part hmem) ht₁
    -- what the first part led to is settled for the others
    have hsettled₁ : ∀ q ∈ parts, w.Settled t₁ q.2 := by
      intro q hq b hb hbx hleads
      have hq' := List.mem_cons_of_mem part hq
      refine hexplored.covers ((h q hq').of_leadsTo hleads) (by simpa only [Visited, hbx]) ?_
      exact fun c hc hcx hbc => hsettled q hq' c hc hcx (hleads.trans hbc)
    have htail := ih (fun q hq => h q (List.mem_cons_of_mem part hq))
      (fun q hq => hgains q (List.mem_cons_of_mem part hq)) hrest ht hsettled₁
    rw [htail, List.flatten_cons, ← List.append_assoc]
    exact eraseDups_append_congr hfirst

/-- Where no object leads back to itself, a tour of an object adds what a walk gathers, each where it
occurs first. -/
theorem tourWithin_gains {depth depth' : Nat} {path : String} {es : List Expr}
    (h : w.Searchable a) (hacyclic : w.heap.Acyclic a) (hes : w.walkWithin depth' a = some es) :
    w.Gains (w.tourWithin depth · path a) es a := by
  induction depth generalizing depth' path a es with
  | zero =>
    intro t t' ht
    cases ht
  | succ depth ih =>
    intro t t' ht hsettled
    cases depth' with
    | zero => cases hes
    | succ depth' =>
      simp only [tourWithin] at ht
      have hwalk := hes
      simp only [walkWithin] at hes
      cases hx : w.heap.expr? a with
      | some e =>
        rw [hx] at ht hes
        cases ht
        cases hes
        rw [collected_concat]
      | none =>
        rw [hx] at ht hes
        dsimp only at ht
        split at ht
        · rename_i hmem
          cases ht
          -- what is met again leads to nothing new
          refine (eraseDups_append_of_subset fun e he => ?_).symm
          obtain ⟨c, x, hleads, ho, he⟩ := walkWithin_sound h hwalk e he
          exact hsettled a hmem hx (.refl _ a) c x hleads ho he
        · obtain ⟨ess, hess, rfl⟩ := Option.map_eq_some_iff.mp hes
          have hholds : ∀ part ∈ w.heap.parts a, w.heap.Holds a part.1 part.2 :=
            fun part hpart => h.ordinary.holds hx hpart
          have hgains : ∀ part ∈ w.heap.parts a, ∀ es, w.walkWithin depth' part.2 = some es →
              w.Gains (w.tourWithin depth · (joinName path part.1) part.2) es part.2 :=
            fun part hpart es hes => ih (h.of_mem_parts hx hpart)
              (hacyclic.of_holds (hholds part hpart)) hes
          refine foldlM_gains (t := { t with objects := a :: t.objects })
            (fun part hpart => h.of_mem_parts hx hpart) hgains hess ht
            fun part hpart b hb hbx hleads => ?_
          -- the object itself is open, but its parts do not lead to it
          rcases List.mem_cons.mp hb with rfl | hb
          · exact absurd hleads (hacyclic b part.1 part.2 (.refl _ b) (hholds part hpart))
          · exact hsettled b hb hbx (.part (hholds part hpart) hleads)

/-! ### The parameters of an object -/

/-- Whatever objects are shared, and also where they lead back to themselves: collecting the
parameters of an object ends, and gives the parameters below the handles to which the object leads,
each once. Where nothing leads back to itself, they stand in the order in which a walk that forgets
what it has met comes to them first. -/
theorem parameters_exact (h : w.Collectable a) : ∃ (ps : List Expr) (w' : Workspace),
    parameters a w = .ok (ps.map .ofExpr) w' ∧ ps.Nodup ∧ (∀ e, e ∈ ps ↔ w.LeadsToBelow a e) ∧
      (w.heap.Acyclic a → ∃ es, w.walkWithin (w.heap.size + 1) a = some es ∧
        ps = es.eraseDups) := by
  obtain ⟨depth, t, w', ht, hrun⟩ := parameters_tour h
  refine ⟨_, w', hrun, nodup_eraseDups _, fun e => ?_, fun hacyclic => ?_⟩
  · rw [List.mem_eraseDups, mem_collected_iff h ht]
  · obtain ⟨es, hes⟩ := exists_walkWithin h.searchable hacyclic
      (Nat.lt_succ_of_le (w.heap.card_reach_le a))
    exact ⟨es, hes, tourWithin_gains h.searchable hacyclic hes {} t ht fun b hb => nomatch hb⟩

/-- A list of a parameter and of its sum with another one, a pair of that list with itself, and a
list of the pair and of itself. -/
def sharedAndLooped : Workspace :=
  { start with
    arenas := #[⟨#[⟨.leaf .param, ⟨[2]⟩, some "p"⟩, ⟨.leaf .param, ⟨[2]⟩, some "q"⟩,
      ⟨.binary .add 0 1, ⟨[2]⟩, none⟩]⟩]
    heap := ⟨Heap.start.objects ++
      #[.expr ⟨0, 2⟩, .expr ⟨0, 1⟩, .list [3, 2], .tuple [4, 4], .list [5, 6]]⟩ }

theorem sharedAndLooped_wellFormed : (sharedAndLooped.arena 0).WellFormed := by
  have hnodes : ∀ i < 3, ∀ n ∈ (sharedAndLooped.arena 0).node? i, ∀ c ∈ n.operands, c < i := by
    decide
  exact fun i n hn c hc => hnodes i (Arena.lt_size_of_node? hn) n hn c hc

theorem sharedAndLooped_collectable (a : Address) (ha : a ∈ [6, 5, 4, 3, 2]) :
    sharedAndLooped.Collectable a := by
  refine collectable_of_closed [6, 5, 4, 3, 2] ha (by decide) (by decide)
    Std.HashMap.isEmpty_empty fun b hb e he => ?_
  have harena : ∀ b ∈ [6, 5, 4, 3, 2], ∀ e ∈ sharedAndLooped.heap.expr? b, e.arena = 0 := by decide
  rw [harena b hb e he]
  exact sharedAndLooped_wellFormed

theorem sharedAndLooped_acyclic : sharedAndLooped.heap.Acyclic 5 :=
  acyclic_of_closed [5, 4, 3, 2] (by decide) (by decide) (by decide)

theorem sharedAndLooped_walk : sharedAndLooped.walkWithin (sharedAndLooped.heap.size + 1) 5 =
    some [⟨0, 1⟩, ⟨0, 0⟩, ⟨0, 1⟩, ⟨0, 1⟩, ⟨0, 0⟩, ⟨0, 1⟩] := by
  have hparam : sharedAndLooped.parametersUnder ⟨0, 1⟩ = [⟨0, 1⟩] :=
    parametersUnder_of_isParameter (x := ⟨0, 1⟩) sharedAndLooped_wellFormed rfl ⟨_, rfl, rfl⟩
  have horder : (sharedAndLooped.arena 0).toposort? 2 = some [0, 1, 2] := by
    have hsum : (sharedAndLooped.arena 0).operands 2 = [0, 1] := rfl
    have hleaf : (sharedAndLooped.arena 0).operands 1 = [] := rfl
    have hnode : (sharedAndLooped.arena 0).node? 2 = some ⟨.binary .add 0 1, ⟨[2]⟩, none⟩ := rfl
    rw [← Int.ofNat_two, Arena.toposort?_ofNat hnode]
    simp [reached, sweep, hsum, hleaf]
  have hsum : sharedAndLooped.parametersUnder ⟨0, 2⟩ = [⟨0, 0⟩, ⟨0, 1⟩] :=
    parametersUnder_eq (x := ⟨0, 2⟩) rfl horder
  have hwalk : sharedAndLooped.walkWithin (sharedAndLooped.heap.size + 1) 5 =
      let list := [sharedAndLooped.parametersUnder ⟨0, 1⟩, sharedAndLooped.parametersUnder ⟨0, 2⟩]
      some [list.flatten, list.flatten].flatten := rfl
  rw [hwalk, hparam, hsum]
  rfl

/-- The pair holds the list twice, and the outer list leads back to itself. -/
theorem parameters_exact_sharedAndLooped :
    sharedAndLooped.Collectable 5 ∧ sharedAndLooped.heap.Acyclic 5 ∧
      (∃ w', parameters 5 sharedAndLooped =
        .ok [.ofExpr ⟨0, 1⟩, .ofExpr ⟨0, 0⟩] w') ∧
      sharedAndLooped.Collectable 6 ∧ ¬sharedAndLooped.heap.Acyclic 6 ∧
      ∃ (ps : List Expr) (w' : Workspace),
        parameters 6 sharedAndLooped = .ok (ps.map .ofExpr) w' ∧ ps.Nodup ∧
          ∀ e, e ∈ ps ↔ sharedAndLooped.LeadsToBelow 6 e := by
  have hpair := sharedAndLooped_collectable 5 (by decide)
  have houter := sharedAndLooped_collectable 6 (by decide)
  have hacyclic := sharedAndLooped_acyclic
  obtain ⟨ps, w', hrun, -, -, hwalk⟩ := parameters_exact hpair
  obtain ⟨es, hes, rfl⟩ := hwalk hacyclic
  obtain ⟨ps', w'', hrun', hnodup, hmem, -⟩ := parameters_exact houter
  refine ⟨hpair, hacyclic, ⟨w', ?_⟩, houter, fun hnot => ?_, ps', w'', hrun', hnodup, hmem⟩
  · rw [sharedAndLooped_walk] at hes
    cases hes
    exact hrun
  · have hpart : ("1", 6) ∈ sharedAndLooped.heap.parts 6 := by decide
    have hholds := houter.searchable.ordinary.holds rfl hpart
    exact hnot 6 "1" 6 (.refl _ 6) hholds (.refl _ 6)

/-! ### Objects that are not ordinary -/

section Unruly

variable {w' : Workspace} {err : Error}

theorem partsOf_of_contents_error (hask : askClassTimes 4 a w = .ok () w)
    (hcontents : w.heap.contents? a = some (.error err)) : partsOf a w = .error err w := by
  have hasking : asking (fun h => h.contents? a) w = .ok (some (.error err)) w := by
    rw [asking, hcontents]
  exact (bind_of_ok hask).trans ((bind_of_ok hasking).trans rfl)

/-- A search ends where it begins, at an object whose parts cannot be told. -/
theorem parameters_of_partsOf_error (hhandle : w.heap.handle? a = none)
    (hask : askClass call a w = .ok () w) (hparts : partsOf a w = .error err w') :
    parameters a w = .error err w' := by
  have hnone : asking (fun h => h.handle? a) w = .ok none w := by rw [asking, hhandle]
  have hcollect : collectWithin w.searchDepth {} a w = .error err w' := by
    refine (bind_of_ok hnone).trans ((bind_of_ok hask).trans ?_)
    rw [if_neg Std.HashSet.not_mem_empty]
    exact bind_of_error hparts
  exact bind_of_error hcollect

end Unruly

/-- A function that captures what was not set, a dictionary with a key of too many digits, an object
with an attribute that goes by a number, a layer with a closure of its own, a handle without a node,
and a member of a class with a hook that cannot be called. -/
def unruly : Workspace :=
  { start with
    arenas := #[⟨#[⟨.leaf .param, ⟨[2]⟩, some "p"⟩]⟩]
    heap := ⟨Heap.start.objects ++
      #[.expr ⟨0, 0⟩,
        .function { name := "f", body := .name "x", captured := [("p", some 2), ("q", none)] } 1,
        .dict [(.int (Nat.pow 10 4300), 2)],
        .dict [(.int 1, 2)], .member .plain 5 [],
        .list [2], .dict [(.text "__closure__", 7)], .member (.layer .bare) 8 [],
        .expr ⟨0, 99⟩,
        .type { name := "C", attrs := [("__getattribute__", 2)] }, .member (.made 11) 1 []]⟩ }

theorem unruly_contents : unruly.heap.contents? 4 = some (.error .integerTooLong) := by
  have hlong : Value.shown (some Number.Numeral.digitLimit) (.int (Nat.pow 10 4300)) =
      .error .integerTooLong := by
    rw [Value.shown, if_pos (by decide +kernel)]
  have hcontents : unruly.heap.contents? 4 = some ([(Value.int (Nat.pow 10 4300), 2)].mapM
      (Heap.entryPart (some Number.Numeral.digitLimit))) := rfl
  rw [hcontents, List.mapM_cons, Heap.entryPart, hlong]
  rfl

/-- From none of these objects are parameters collected. -/
theorem unruly_parameters :
    (∃ w', parameters 3 unruly = .error .emptyCell w') ∧
      (∃ w', parameters 4 unruly = .error .integerTooLong w') ∧
      (∃ type w', parameters 6 unruly = .error (.noAttribute type "startswith") w') ∧
      (∃ type w', parameters 9 unruly = .error (.noAttribute type "__code__") w') ∧
      (∃ w', parameters 10 unruly = .error (.absent 99) w') ∧
      ∃ type w', parameters 12 unruly = .error (.notCallable type) w' := by
  refine ⟨⟨_, parameters_of_partsOf_error rfl rfl rfl⟩, ?_,
    ⟨_, _, parameters_of_partsOf_error rfl rfl rfl⟩,
    ⟨_, _, parameters_of_partsOf_error rfl rfl rfl⟩, ⟨_, rfl⟩, ⟨_, _, rfl⟩⟩
  -- evaluating the key would write its digits
  have hparts := partsOf_of_contents_error rfl unruly_contents
  exact ⟨_, parameters_of_partsOf_error rfl rfl hparts⟩

end Workspace

end TensorGraph
