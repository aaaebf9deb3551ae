import Mathlib.Data.List.Induction
import TensorGraph.Proofs.Workspace.Tour

/-!
# Searching for parameters

The search of an object and all that it holds, as a function of the objects at hand. It goes where a
tour goes, so each object is gone through once, and it notes each parameter once, with the path that
led to it first. Where all objects are ordinary, it finds the parameters that the object leads to.
-/

namespace TensorGraph.Workspace

/-- A parameter that was found: its name, the handle and the expression that this is. -/
structure Found where
  name : String
  holder : Address
  param : Expr
deriving DecidableEq, Repr

/-- What a search has met: objects, the last one first, and parameters, the first one first. -/
structure Search where
  objects : List Address := []
  found : List Found := []
deriving Repr

/-- The name of a parameter: its path, else its own name, else its index. -/
def nameOf (path : String) (e : Expr) (n : Node) : String :=
  if !path.isEmpty then path
  else if (n.name.getD "").isEmpty then "param" ++ toString e.index
  else n.name.getD ""

/-- Notes an expression, if it is a parameter that was not found before. -/
def meet (w : Workspace) (s : Search) (path : String) (a : Address) (e : Expr) : Search :=
  match w.arenas.node? e with
  | some n =>
    if n.kind = .param ∧ e ∉ s.found.map Found.param then
      { s with found := s.found ++ [⟨nameOf path e n, a, e⟩] }
    else s
  | none => s

/-- Searches an object, at most `depth` objects deep. -/
def searchWithin (w : Workspace) : Nat → Search → String → Address → Option Search
  | 0, _, _, _ => none
  | depth + 1, s, path, a =>
    match w.heap.expr? a with
    | some e => some (w.meet s path a e)
    | none =>
      if a ∈ s.objects then some s
      else
        (w.heap.parts a).foldlM
          (fun s part => searchWithin w depth s (joinName path part.1) part.2)
          { s with objects := a :: s.objects }

/-! ### Parameters that objects hold -/

/-- An object leads to a handle of a parameter. -/
def LeadsToParameter (w : Workspace) (path : String) (a : Address) (path' : String) (b : Address)
    (e : Expr) (n : Node) : Prop :=
  w.heap.Leads path a path' b ∧ w.heap.get? b = some (.expr e) ∧ w.arenas.node? e = some n ∧
    n.kind = .param

/-- An object holds a parameter, itself or through the objects that it holds. -/
def HoldsParameter (w : Workspace) (a : Address) (e : Expr) : Prop :=
  ∃ path' b n, w.LeadsToParameter "" a path' b e n

variable {w : Workspace}

/-! ### What a search notes -/

/-- An expression is noted when it is a parameter that is new. -/
theorem meet_cases (w : Workspace) (s : Search) (path : String) (a : Address) (e : Expr) :
    (w.meet s path a e = s ∧
      ∀ n, w.arenas.node? e = some n → n.kind = .param → e ∈ s.found.map Found.param) ∨
    ∃ n, w.arenas.node? e = some n ∧ n.kind = .param ∧ e ∉ s.found.map Found.param ∧
      w.meet s path a e = { s with found := s.found ++ [⟨nameOf path e n, a, e⟩] } := by
  simp only [meet]
  cases hn : w.arenas.node? e with
  | none => exact .inl ⟨rfl, fun n hn => nomatch hn⟩
  | some n =>
    by_cases hnew : n.kind = .param ∧ e ∉ s.found.map Found.param
    · exact .inr ⟨n, rfl, hnew.1, hnew.2, if_pos hnew⟩
    · refine .inl ⟨if_neg hnew, fun n' hn' hk => ?_⟩
      cases hn'
      exact Decidable.not_not.mp fun hne => hnew ⟨hk, hne⟩

/-- What a search notes of handles that are seen one after the other. -/
def noted (w : Workspace) (sights : List Sight) : List Found :=
  (sights.foldl (fun s x => w.meet s x.path x.holder x.expr) {}).found

theorem meet_eq (w : Workspace) (s : Search) (path : String) (a : Address) (e : Expr) :
    w.meet s path a e = { s with found := (w.meet { found := s.found } path a e).found } := by
  simp only [meet]
  cases w.arenas.node? e with
  | none => rfl
  | some n =>
    dsimp only
    split <;> rfl

theorem noted_concat (sights : List Sight) (x : Sight) :
    w.noted (sights ++ [x]) =
      (w.meet { found := w.noted sights } x.path x.holder x.expr).found := by
  rw [noted, List.foldl_append, List.foldl_cons, List.foldl_nil, meet_eq, noted]

/-- What is noted are parameters, each under the path by which it was seen. -/
theorem noted_sound {sights : List Sight} {f : Found} (hf : f ∈ w.noted sights) :
    ∃ x ∈ sights, ∃ n, w.arenas.node? x.expr = some n ∧ n.kind = .param ∧
      f = ⟨nameOf x.path x.expr n, x.holder, x.expr⟩ := by
  induction sights using List.reverseRecOn with
  | nil => cases hf
  | append_singleton sights x ih =>
    have hearlier : f ∈ w.noted sights → ∃ y ∈ sights ++ [x], ∃ n,
        w.arenas.node? y.expr = some n ∧ n.kind = .param ∧
          f = ⟨nameOf y.path y.expr n, y.holder, y.expr⟩ := by
      intro hf
      obtain ⟨y, hy, hnode⟩ := ih hf
      exact ⟨y, List.mem_append_left _ hy, hnode⟩
    rw [noted_concat] at hf
    rcases w.meet_cases { found := w.noted sights } x.path x.holder x.expr with
      ⟨hsame, -⟩ | ⟨n, hn, hkind, -, hadd⟩
    · rw [hsame] at hf
      exact hearlier hf
    · rw [hadd] at hf
      rcases List.mem_append.mp hf with hf | hf
      · exact hearlier hf
      · exact ⟨x, by simp, n, hn, hkind, List.mem_singleton.mp hf⟩

/-- No parameter is noted twice. -/
theorem noted_nodup (sights : List Sight) : ((w.noted sights).map Found.param).Nodup := by
  induction sights using List.reverseRecOn with
  | nil => exact List.nodup_nil
  | append_singleton sights x ih =>
    rw [noted_concat]
    rcases w.meet_cases { found := w.noted sights } x.path x.holder x.expr with
      ⟨hsame, -⟩ | ⟨n, -, -, hnew, hadd⟩
    · rw [hsame]
      exact ih
    · rw [hadd, List.map_append]
      refine List.nodup_append.mpr ⟨ih, by simp, ?_⟩
      rintro e he e' he' rfl
      rw [List.map_singleton, List.mem_singleton] at he'
      rw [he'] at he
      exact hnew he

/-- Each parameter that was seen is noted. -/
theorem mem_noted {sights : List Sight} {x : Sight} (hx : x ∈ sights) {n : Node}
    (hn : w.arenas.node? x.expr = some n) (hkind : n.kind = .param) :
    x.expr ∈ (w.noted sights).map Found.param := by
  induction sights using List.reverseRecOn with
  | nil => cases hx
  | append_singleton sights y ih =>
    rw [noted_concat]
    rcases w.meet_cases { found := w.noted sights } y.path y.holder y.expr with
      ⟨hsame, hknown⟩ | ⟨n', -, -, -, hadd⟩
    · rw [hsame]
      rcases List.mem_append.mp hx with hx | hx
      · exact ih hx
      · obtain rfl := List.mem_singleton.mp hx
        exact hknown n hn hkind
    · rw [hadd, List.map_append]
      rcases List.mem_append.mp hx with hx | hx
      · exact List.mem_append_left _ (ih hx)
      · obtain rfl := List.mem_singleton.mp hx
        simp

/-! ### A search as a tour -/

/-- What a search has met where a tour has met the same. -/
def searchOf (w : Workspace) (t : Tour) : Search := ⟨t.objects, w.noted t.sights⟩

/-- A search meets a handle when a tour sees it. -/
theorem meet_searchOf (t : Tour) (path : String) (a : Address) (e : Expr) :
    w.meet (w.searchOf t) path a e =
      w.searchOf { t with sights := t.sights ++ [⟨path, a, e⟩] } := by
  rw [meet_eq]
  exact congrArg (Search.mk t.objects) (noted_concat t.sights ⟨path, a, e⟩).symm

/-- A search goes where a tour goes. -/
theorem searchWithin_eq (w : Workspace) (depth : Nat) (t : Tour) (path : String) (a : Address) :
    w.searchWithin depth (w.searchOf t) path a =
      (w.tourWithin depth t path a).map w.searchOf := by
  induction depth generalizing t path a with
  | zero => rfl
  | succ depth ih =>
    have hparts : ∀ (parts : Parts) (t : Tour), parts.foldlM
        (fun s part => w.searchWithin depth s (joinName path part.1) part.2) (w.searchOf t) =
        (parts.foldlM (fun t part => w.tourWithin depth t (joinName path part.1) part.2) t).map
          w.searchOf := by
      intro parts
      induction parts with
      | nil => exact fun t => rfl
      | cons part parts ihparts =>
        intro t
        rw [List.foldlM_cons, List.foldlM_cons, ih]
        cases w.tourWithin depth t (joinName path part.1) part.2 with
        | none => rfl
        | some t' => exact ihparts t'
    simp only [searchWithin, tourWithin]
    cases hx : w.heap.expr? a with
    | some e =>
      exact congrArg some (meet_searchOf t path a e)
    | none =>
      have hobjects : (w.searchOf t).objects = t.objects := rfl
      dsimp only
      rw [hobjects]
      split
      · rfl
      · exact hparts (w.heap.parts a) { t with objects := a :: t.objects }

/-- The parameters that a search of an object finds, in order. -/
def search (w : Workspace) (path : String) (a : Address) : List Found :=
  ((w.searchWithin w.searchDepth {} path a).map Search.found).getD []

/-- A search notes what a tour has seen. -/
theorem exists_tour_search {a : Address} (h : w.Searchable a) (path : String) :
    ∃ t, w.tourWithin w.searchDepth {} path a = some t ∧ w.search path a = w.noted t.sights := by
  have hdepth : w.heap.size < w.searchDepth := by
    rw [searchDepth]
    omega
  obtain ⟨t, ht⟩ := exists_tour path h hdepth
  have hsearch := w.searchWithin_eq w.searchDepth {} path a
  rw [ht] at hsearch
  refine ⟨t, ht, ?_⟩
  rw [search]
  exact congrArg (fun s : Option Search => (s.map Search.found).getD []) hsearch

section Exactness

variable {a : Address} (h : w.Searchable a) (path : String)

include h

theorem search_nodup : ((w.search path a).map Found.param).Nodup := by
  obtain ⟨t, -, hsearch⟩ := exists_tour_search h path
  rw [hsearch]
  exact noted_nodup t.sights

/-- What is found is a parameter that the object holds, and goes by a path to it. -/
theorem search_sound : ∀ f ∈ w.search path a, ∃ path' n,
    w.LeadsToParameter path a path' f.holder f.param n ∧ f.name = nameOf path' f.param n := by
  obtain ⟨t, ht, hsearch⟩ := exists_tour_search h path
  intro f hf
  rw [hsearch] at hf
  obtain ⟨x, hx, n, hn, hkind, rfl⟩ := noted_sound hf
  obtain ⟨hleads, ho⟩ := (sights_exact h ht).1 x hx
  exact ⟨x.path, n, ⟨hleads, ho, hn, hkind⟩, rfl⟩

/-- The parameters found are those that the object holds. -/
theorem mem_search_iff (e : Expr) :
    e ∈ (w.search path a).map Found.param ↔ w.HoldsParameter a e := by
  constructor
  · intro he
    obtain ⟨f, hf, rfl⟩ := List.mem_map.mp he
    obtain ⟨path', n, ⟨hleads, hparam⟩, -⟩ := search_sound h path f hf
    obtain ⟨path'', hleads⟩ := hleads.exists_rebase ""
    exact ⟨path'', f.holder, n, hleads, hparam⟩
  · rintro ⟨path', b, n, hleads, ho, hn, hk⟩
    obtain ⟨path'', hleads⟩ := hleads.exists_rebase path
    obtain ⟨t, ht, hsearch⟩ := exists_tour_search h path
    obtain ⟨path₁, hseen⟩ := (sights_exact h ht).2 path'' b e hleads ho
    rw [hsearch]
    exact mem_noted hseen hn hk

end Exactness

/-- What a search finds is held by handles. -/
theorem handle?_of_mem_search {a : Address} (h : w.Searchable a) {path : String} {f : Found}
    (hf : f ∈ w.search path a) : w.heap.handle? f.holder = some (.ofExpr f.param) := by
  obtain ⟨path', n, ⟨-, ho, -⟩, -⟩ := search_sound h path f hf
  simp only [Heap.handle?, ho]

end TensorGraph.Workspace
