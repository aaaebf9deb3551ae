import TensorGraph.Proofs.Network.Holding
import TensorGraph.Proofs.Outcome
import TensorGraph.Workspace.Discovery

/-!
# Asking quiet objects

A search asks an object for its class, for a closure and for its attributes. A quiet object answers
without a call: its parts are what it holds. All that may happen on the way is that values are
stored.
-/

namespace TensorGraph.Workspace

/-- The workspaces differ in the objects only: all stay, and those that are new satisfy a
condition. -/
structure Adds (P : Object → Prop) (w w' : Workspace) : Prop where
  same : w' = { w with heap := w'.heap }
  objects : w.heap.Adds P w'.heap

namespace Adds

variable {P Q : Object → Prop} {w w' w'' : Workspace}

theorem refl (P : Object → Prop) (w : Workspace) : w.Adds P w := ⟨rfl, .refl P w.heap⟩

theorem trans (h : w.Adds P w') (h' : w'.Adds P w'') : w.Adds P w'' := by
  refine ⟨?_, h.objects.trans h'.objects⟩
  rw [h'.same, h.same]

theorem mono (h : w.Adds P w') (hPQ : ∀ o, P o → Q o) : w.Adds Q w' :=
  ⟨h.same, h.objects.mono hPQ⟩

theorem alloc (w : Workspace) {o : Object} (ho : P o) :
    w.Adds P { w with heap := (w.heap.alloc o).2 } :=
  ⟨rfl, .alloc w.heap ho⟩

theorem arenas (h : w.Adds P w') : w'.arenas = w.arenas := by rw [h.same]

theorem evaluator (h : w.Adds P w') (c : ContextId) : w'.evaluator c = w.evaluator c := by
  rw [h.same]
  rfl

theorem operandForms (h : w.Adds P w') : w'.operandForms = w.operandForms := by rw [h.same]

end Adds

variable {w : Workspace} {a : Address}

theorem getNode_ok {e : Expr} {n : Node} (hn : w.arenas.node? e = some n) :
    getNode e w = .ok n w := by
  simp only [getNode, Arenas.getNode, hn, ofExcept]

/-- A handle is one of a parameter if its node is. -/
theorem isOfKind_param {e : Expr} {n : Node} (ha : w.heap.get? a = some (.expr e))
    (hn : w.arenas.node? e = some n) :
    isOfKind call .param a w = .ok (decide (n.kind = .param)) w := by
  rw [isOfKind_expr ha]
  exact bind_of_ok (getNode_ok hn)

/-! ### Values -/

/-- A value that is no row is stored as it is. -/
theorem newValue_ok {v : Value} (hv : ∀ h, Heap.ofValue v h = h.alloc (.value v)) (w : Workspace) :
    ∃ w', newValue v w = .ok w.heap.size w' ∧ w.Adds Object.IsValue w' ∧
      w'.heap.get? w.heap.size = some (.value v) := by
  refine ⟨{ w with heap := (w.heap.alloc (.value v)).2 }, ?_, .alloc w ⟨v, rfl⟩, ?_⟩
  · simp only [newValue, storing, hv]
    rfl
  · exact (Heap.get?_alloc ..).trans (if_pos rfl)

theorem special?_natural (hc : w.heap.madeClassOf? a = none) (name : String) :
    special? call a name w = .ok none w := by
  simp only [special?, asking, Bind.bind, EStateM.bind, hc]
  rfl

/-- No class has a say in whether a value, a container or a function counts as true. -/
theorem isTrue_natural {o : Object} (ho : w.heap.get? a = some o)
    (hc : w.heap.madeClassOf? a = none) (hgrid : ∀ g, o ≠ .grid g) (harena : ∀ id, o ≠ .arena id) :
    isTrue call a w = .ok (w.heap.isTrue a) w := by
  have hlength : lengthOf? call a w = .ok none w := by
    simp only [lengthOf?, Bind.bind, EStateM.bind, special?_natural hc]
    rfl
  have hsingle : isTrueSingle call a w = .ok (w.heap.isTrue a) w := by
    simp only [isTrueSingle, object, Bind.bind, EStateM.bind, ho, special?_natural hc, hlength]
    cases o with
    | arena id => exact absurd rfl (harena id)
    | _ => rfl
  simp only [isTrue, object, Bind.bind, EStateM.bind, ho]
  cases o with
  | grid g => exact absurd rfl (hgrid g)
  | _ => exact hsingle

theorem isTrue_value {v : Value} (ha : w.heap.get? a = some (.value v)) :
    isTrue call a w = .ok v.isTrue w := by
  have htrue : w.heap.isTrue a = v.isTrue := by simp only [Heap.isTrue, ha]
  rw [← htrue]
  apply isTrue_natural ha
  · simp only [Heap.madeClassOf?, ha]
  · rintro g ⟨⟩
  · rintro id ⟨⟩

/-- A member of a class counts as true by itself. -/
theorem madeClassOf?_of_isTrue_eq_false (ha : w.heap.isTrue a = false) :
    w.heap.madeClassOf? a = none := by
  cases ho : w.heap.get? a with
  | none => simp only [Heap.madeClassOf?, ho]
  | some o =>
    cases o with
    | member => simp only [Heap.isTrue, ho, Bool.true_eq_false] at ha
    | _ => simp only [Heap.madeClassOf?, ho]

theorem isTrue_eq_false (ha : w.heap.isTrue a = false) : isTrue call a w = .ok false w := by
  cases ho : w.heap.get? a with
  | none =>
    simp only [Heap.isTrue, ho] at ha
    cases ha
  | some o =>
    rw [← ha]
    apply isTrue_natural ho (madeClassOf?_of_isTrue_eq_false ha)
    · rintro g rfl
      simp only [Heap.isTrue, ho, Bool.true_eq_false] at ha
    · rintro id rfl
      simp only [Heap.isTrue, ho, Bool.true_eq_false] at ha

/-! ### Classes and closures -/

theorem missing_isOfAttribute (h : Heap) (a : Address) (name : String) :
    (h.missing a name).isOfAttribute = true := by
  simp only [Heap.missing]
  split <;> rfl

/-- An object that lacks an attribute does not have it. -/
theorem attribute?_of_lacks {name : String} {b : Address}
    (hx : getAttribute call a name w = lacks b name w) :
    attribute? call a name w = .ok none w := by
  have herror : (some <$> getAttribute call a name) w = .error (w.heap.missing b name) w :=
    bind_of_error hx
  simp only [attribute?, orElse, herror, missing_isOfAttribute]
  rfl

theorem attribute?_of_ok {name : String} {b : Address} {w' : Workspace}
    (hx : getAttribute call a name w = .ok b w') :
    attribute? call a name w = .ok (some b) w' := by
  simp only [attribute?, orElse, map_of_ok hx]

/-- A function that captures nothing has nothing for a closure. -/
theorem partOf_function {f : Function} {attrs : Address}
    (ha : w.heap.get? a = some (.function f attrs)) (hcaptured : f.captured = []) :
    ∃ w', partOf a "__closure__" w = .ok w.heap.size w' ∧ w.Adds Object.IsValue w' ∧
      w'.heap.get? w.heap.size = some (.value .none) := by
  obtain ⟨w', hw', hadds, hvalue⟩ := newValue_ok (v := .none) (fun _ => rfl) w
  refine ⟨w', ?_, hadds, hvalue⟩
  have hpart : functionPart? f attrs "__closure__" w = .ok (some w.heap.size) w' := by
    simp only [functionPart?, hcaptured, List.isEmpty_nil, if_true, map_of_ok hw']
  simp only [partOf, fixedPart?, object, Bind.bind, EStateM.bind, ha, hpart]
  rfl

/-- What has an attribute of a name, if at all, as its own. -/
def ownOrLacks (a : Address) (name : String) : Work Address := do
  match ← asking fun h => h.ownAttribute? a name with
  | some own => return own
  | none => lacks a name

/-- What can be called has no closure but one of its own, unless it is a function. -/
theorem partOf_closure (hcall : w.heap.isCallable a = true) (hf : w.heap.function? a = none) :
    partOf a "__closure__" w = ownOrLacks a "__closure__" w := by
  have hfixed : fixedPart? a "__closure__" w = .ok none w := by
    simp only [fixedPart?, object, Bind.bind, EStateM.bind]
    cases ho : w.heap.get? a with
    | none => rfl
    | some o =>
      cases o with
      | function f attrs => simp [Heap.function?, ho] at hf
      | value v => cases v <;> rfl
      | _ => rfl
  have hhas : hasFunction w.heap a "__closure__" = false := by
    cases ho : w.heap.get? a with
    | none => simp [hasFunction, ho]
    | some o =>
      cases o with
      | value v => simp [Heap.isCallable, ho] at hcall
      | shape s attrs => simp [Heap.isCallable, ho] at hcall
      | tuple items => simp [Heap.isCallable, ho] at hcall
      | member c attrs fields => cases c <;> simp [hasFunction, ho]
      | _ => simp [hasFunction, ho]
  cases hown : w.heap.ownAttribute? a "__closure__" with
  | some own => simp only [partOf, ownOrLacks, asking, Bind.bind, EStateM.bind, hfixed, hown]
  | none =>
    simp only [partOf, ownOrLacks, asking, Bind.bind, EStateM.bind, hfixed, hown, hhas]
    rfl

/-- What has no say in what it stands for is what a class has. -/
theorem through_class {item type : Address} (hc : w.heap.madeClassOf? item = none) :
    through call item none type w = .ok item w := by
  have hget : w.heap.inClass? item "__get__" = none := by
    simp only [Heap.inClass?, hc, Option.bind_none]
  simp only [through, object, asking, Bind.bind, EStateM.bind, hget]
  cases w.heap.get? item with
  | none => rfl
  | some o => cases o <;> rfl

/-- A member of a made class. -/
theorem madeClassOf?_cases {h : Heap} {p : Address × MadeClass} (hp : h.madeClassOf? a = some p) :
    ∃ attrs fields, h.get? a = some (.member (.made p.1) attrs fields) := by
  simp only [Heap.madeClassOf?] at hp
  split at hp
  · rename_i type attrs fields ho
    obtain ⟨c, -, rfl⟩ := Option.map_eq_some_iff.mp hp
    exact ⟨attrs, fields, ho⟩
  · cases hp

theorem getAttribute_member {p : Address × MadeClass} (hp : w.heap.madeClassOf? a = some p)
    (name : String) : getAttribute call a name w = memberAttribute call a p.1 p.2 name w := by
  obtain ⟨attrs, fields, ho⟩ := madeClassOf?_cases hp
  have hhandle : w.heap.handle? a = none := by simp only [Heap.handle?, ho]
  simp only [getAttribute, attributeOf, asking, Bind.bind, EStateM.bind, hhandle, hp]

section Quiet

variable (hq : w.heap.Quiet a)

include hq

theorem plainAttribute_quiet {type : Address} {c : MadeClass} {name : String}
    (hc : w.heap.madeClassOf? a = some (type, c)) (hname : name ∈ w.heap.hooks a c) :
    plainAttribute call a type c name w =
      match memberPart? w.heap a type c name with
      | some part => .ok part w
      | none => ownOrLacks a name w := by
  simp only [plainAttribute, ownOrLacks, asking, Bind.bind, EStateM.bind,
    hq.silent _ hc name hname]
  cases memberPart? w.heap a type c name with
  | some part => rfl
  | none => cases w.heap.ownAttribute? a name <;> rfl

/-- What every member of a class has is not asked for by a quiet class. -/
theorem memberAttribute_of_part {type part : Address} {c : MadeClass} {name : String}
    (hc : w.heap.madeClassOf? a = some (type, c)) (hname : name ∈ w.heap.hooks a c)
    (hpart : memberPart? w.heap a type c name = some part) :
    memberAttribute call a type c name w = .ok part w := by
  have hget : c.attrs.get? "__getattribute__" = none := hq.silent _ hc _ (by simp [Heap.hooks])
  have hplain : plainAttribute call a type c name w = .ok part w := by
    rw [plainAttribute_quiet hq hc hname, hpart]
  simp only [memberAttribute, hget]
  cases c.attrs.get? "__getattr__" with
  | none => exact hplain
  | some hook => simp only [orElse, hplain]

/-- What only some members have is theirs, where a quiet class does not make up for it. -/
theorem memberAttribute_of_hook {type : Address} {c : MadeClass} {name : String}
    (hc : w.heap.madeClassOf? a = some (type, c)) (hname : name ∈ w.heap.hooks a c)
    (hhook : "__getattr__" ∈ w.heap.hooks a c)
    (hpart : memberPart? w.heap a type c name = none) :
    memberAttribute call a type c name w = ownOrLacks a name w := by
  have hget : c.attrs.get? "__getattribute__" = none := hq.silent _ hc _ (by simp [Heap.hooks])
  have hgetattr : c.attrs.get? "__getattr__" = none := hq.silent _ hc _ hhook
  simp only [memberAttribute, hget, hgetattr, plainAttribute_quiet hq hc hname, hpart]

theorem askClass_quiet : askClass call a w = .ok () w := by
  cases hc : w.heap.madeClassOf? a with
  | none =>
    simp only [askClass, asking, Bind.bind, EStateM.bind, hc]
    rfl
  | some p =>
    obtain ⟨type, c⟩ := p
    obtain ⟨attrs, fields, ho⟩ := madeClassOf?_cases hc
    have hpart : memberPart? w.heap a type c "__class__" = some type := by
      simp [memberPart?, ho]
    have hclass : memberAttribute call a type c "__class__" w = .ok type w :=
      memberAttribute_of_part hq hc (by simp [Heap.hooks]) hpart
    simp only [askClass, asking, Bind.bind, EStateM.bind, hc, orElse, map_of_ok hclass]
    rfl

theorem askClassTimes_quiet (n : Nat) : askClassTimes n a w = .ok () w := by
  simp only [askClassTimes]
  induction n with
  | zero => rfl
  | succ n ih =>
    rw [List.replicate_succ]
    exact (forM_cons_of_ok (g := fun _ => askClass call a) (askClass_quiet hq)).trans ih

/-- What a member has for a dictionary is a dictionary, if it has one. -/
theorem memberParts_quiet {p : Address × MadeClass} (hp : w.heap.madeClassOf? a = some p)
    {found : Parts} (hfound : Heap.visible (w.heap.attributesOf a) = .ok found) :
    memberParts a w = .ok (labelled found) w := by
  obtain ⟨type, c⟩ := p
  obtain ⟨attrs, fields, ho⟩ := madeClassOf?_cases hp
  have hlaid := hq.laidOut _ hp
  have hname : "__dict__" ∈ w.heap.hooks a c := by simp [Heap.hooks]
  cases hlayout : c.layout.hasDictionary with
  | true =>
    rw [Heap.LaidOut, if_pos hlayout] at hlaid
    have hpart : memberPart? w.heap a type c "__dict__" = some attrs := by
      simp [memberPart?, ho, hlayout]
    have hget : getAttribute call a "__dict__" w = .ok attrs w := by
      rw [getAttribute_member hp, memberAttribute_of_part hq hp hname hpart]
    obtain ⟨entries, hentries⟩ : ∃ entries, w.heap.get? attrs = some (.dict entries) := by
      simp only [Heap.dictionaryOf?, ho] at hlaid
      split at hlaid
      · rename_i entries he
        exact ⟨entries, he⟩
      · exact absurd rfl hlaid
    have hsame : w.heap.attributesOf a = entries := by
      simp only [Heap.attributesOf, ho, Heap.entries, hentries]
    rw [hsame] at hfound
    have hparts : partsInDictionary attrs w = .ok (labelled found) w := by
      simp only [partsInDictionary, object, Bind.bind, EStateM.bind, hentries, ofExcept, hfound,
        Functor.map, EStateM.map]
    simp only [memberParts, Bind.bind, EStateM.bind, attribute?_of_ok hget, askClass_quiet hq, hget,
      hparts]
  | false =>
    rw [Heap.LaidOut, hlayout, if_neg Bool.false_ne_true] at hlaid
    have hown : w.heap.ownAttribute? a "__dict__" = none := by
      have hentries : w.heap.entries attrs = [] := by
        rw [← hlaid]
        simp only [Heap.attributesOf, ho]
      simp only [Heap.ownAttribute?, Heap.ownAttribute?.inDictionary, ho, hentries]
      rfl
    have hpart : memberPart? w.heap a type c "__dict__" = none := by
      simp [memberPart?, ho, hlayout]
    have hget : getAttribute call a "__dict__" w = lacks a "__dict__" w := by
      rw [getAttribute_member hp,
        memberAttribute_of_hook hq hp hname (by simp [Heap.hooks, hlayout]) hpart]
      simp only [ownOrLacks, asking, Bind.bind, EStateM.bind, hown]
    rw [hlaid] at hfound
    cases hfound
    simp only [memberParts, Bind.bind, EStateM.bind, attribute?_of_lacks hget]
    rfl

theorem attributeParts_quiet (hcontents : w.heap.contents? a = none) :
    attributeParts a w = .ok (labelled (w.heap.parts a)) w := by
  obtain ⟨found, htells⟩ := hq.exists_tells
  rw [Heap.parts_of_tells htells]
  rw [Heap.tells, hcontents, Option.getD_none] at htells
  cases hc : w.heap.madeClassOf? a with
  | some p =>
    simp only [attributeParts, asking, Bind.bind, EStateM.bind, hc, Option.isSome_some, if_true]
    exact memberParts_quiet hq hc htells
  | none =>
    simp only [attributeParts, asking, Bind.bind, EStateM.bind, hc, Option.isSome_none,
      Bool.false_eq_true, if_false, Functor.map, EStateM.map, ofExcept, htells]

theorem getAttribute_natural (hc : w.heap.madeClassOf? a = none) (name : String) :
    getAttribute call a name w = naturalAttribute call a name w := by
  simp only [getAttribute, attributeOf, asking, Bind.bind, EStateM.bind, hq.noHandle, hc]

theorem closure_of_function (hc : w.heap.madeClassOf? a = none) {p : Function × Address}
    (hp : w.heap.function? a = some p) (hcaptured : p.1.captured = []) :
    ∃ w', getAttribute call a "__closure__" w = .ok w.heap.size w' ∧ w.Adds Object.IsValue w' ∧
      w'.heap.get? w.heap.size = some (.value .none) := by
  rw [getAttribute_natural hq hc]
  obtain ho | ⟨f, first, ho, hf⟩ := Heap.function?_cases hp
  · simp only [naturalAttribute, object, Bind.bind, EStateM.bind, ho]
    exact partOf_function ho hcaptured
  · simp only [naturalAttribute, object, Bind.bind, EStateM.bind, ho]
    exact partOf_function hf hcaptured

/-- What can be called and is no function may have something of its own for a closure. -/
theorem closure_of_callable (hcall : w.heap.isCallable a = true)
    (hf : w.heap.function? a = none) :
    getAttribute call a "__closure__" w = ownOrLacks a "__closure__" w := by
  have hclosure := partOf_closure hcall hf
  cases hc : w.heap.madeClassOf? a with
  | some p =>
    obtain ⟨attrs, fields, ho⟩ := madeClassOf?_cases hc
    have hpart : memberPart? w.heap a p.1 p.2 "__closure__" = none := by simp [memberPart?, ho]
    rw [getAttribute_member hc, memberAttribute_of_hook hq hc (by simp [Heap.hooks, hcall])
      (by simp [Heap.hooks, hcall]) hpart]
  | none =>
    rw [getAttribute_natural hq hc]
    have hmethod := hq.method
    have hfalse := hq.closure hcall hf
    simp only [naturalAttribute, object, Bind.bind, EStateM.bind]
    cases ho : w.heap.get? a with
    | none => exact hclosure
    | some o =>
      cases o with
      | method f first =>
        rw [hf] at hmethod
        cases hmethod (by simp only [Heap.isMethod, ho])
      | type c =>
        cases hown : w.heap.ownAttribute? a "__closure__" with
        | none =>
          simp only [ownOrLacks, asking, Bind.bind, EStateM.bind, hown] at hclosure ⊢
          exact bind_of_error hclosure
        | some own =>
          have hthrough : through call own none a w = .ok own w :=
            through_class (madeClassOf?_of_isTrue_eq_false (hfalse own hown))
          simp only [ownOrLacks, asking, Bind.bind, EStateM.bind, hown] at hclosure ⊢
          exact (bind_of_ok hclosure).trans hthrough
      | _ => exact hclosure

/-- What a quiet object has for a closure, if anything, does not count as true. -/
theorem closure?_quiet (hcontents : w.heap.contents? a = none) :
    ∃ closure w', w.Adds Object.IsValue w' ∧ closure? a w = .ok closure w' ∧
      ∀ c ∈ closure, w'.heap.isTrue c = false := by
  cases hcall : w.heap.isCallable a with
  | false =>
    refine ⟨none, w, .refl _ w, ?_, nofun⟩
    simp only [closure?, asking, Bind.bind, EStateM.bind, hcall, Bool.false_eq_true, if_false]
    rfl
  | true =>
    have hclosure : closure? a w = attribute? call a "__closure__" w := by
      simp only [closure?, asking, Bind.bind, EStateM.bind, hcall, if_true]
    rw [hclosure]
    cases hf : w.heap.function? a with
    | some p =>
      have hcaptured : p.1.captured = [] := by
        rw [Heap.contents?_of_function? hf] at hcontents
        split at hcontents
        · rename_i hempty
          exact List.isEmpty_iff.mp hempty
        · cases hcontents
      have hc : w.heap.madeClassOf? a = none := by
        rcases Heap.function?_cases hf with ho | ⟨f, first, ho, -⟩ <;>
          simp only [Heap.madeClassOf?, ho]
      obtain ⟨w', hget, hadds, hvalue⟩ := closure_of_function hq hc hf hcaptured
      refine ⟨some w.heap.size, w', hadds, attribute?_of_ok hget, ?_⟩
      rintro c ⟨⟩
      simp only [Heap.isTrue, hvalue]
      rfl
    | none =>
      have hget := closure_of_callable hq hcall hf
      refine ⟨w.heap.ownAttribute? a "__closure__", w, .refl _ w, ?_, hq.closure hcall hf⟩
      cases hown : w.heap.ownAttribute? a "__closure__" with
      | some c =>
        apply attribute?_of_ok
        simp only [hget, ownOrLacks, asking, Bind.bind, EStateM.bind, hown]
        rfl
      | none =>
        apply attribute?_of_lacks (b := a)
        simp only [hget, ownOrLacks, asking, Bind.bind, EStateM.bind, hown]

/-- The parts of a quiet object are what it holds. -/
theorem partsOf_quiet :
    ∃ w', w.Adds Object.IsValue w' ∧ partsOf a w = .ok (labelled (w.heap.parts a)) w' := by
  have hasked := askClassTimes_quiet hq 4
  have hfound : asking (fun h => h.contents? a) w = .ok (w.heap.contents? a) w := rfl
  cases hcontents : w.heap.contents? a with
  | some told =>
    obtain ⟨found, htells⟩ := hq.exists_tells
    rw [Heap.parts_of_tells htells]
    rw [Heap.tells, hcontents, Option.getD_some] at htells
    rw [hcontents, htells] at hfound
    exact ⟨w, .refl _ w, (bind_of_ok hasked).trans (bind_of_ok hfound)⟩
  | none =>
    rw [hcontents] at hfound
    obtain ⟨closure, w', hadds, hclosure, hfalse⟩ := closure?_quiet hq hcontents
    have hparts := attributeParts_quiet (hadds.objects.quiet_of_values hq)
      ((hadds.objects.bare.similar.contents? a).trans hcontents)
    rw [hadds.objects.bare.parts] at hparts
    refine ⟨w', hadds, (bind_of_ok hasked).trans ((bind_of_ok hfound).trans
      ((bind_of_ok hclosure).trans ?_))⟩
    cases closure with
    | none => exact hparts
    | some c => exact (bind_of_ok (isTrue_eq_false (hfalse c rfl))).trans hparts

end Quiet

end TensorGraph.Workspace
