import Mathlib.Data.List.Induction
import TensorGraph.Network.Discovery
import TensorGraph.Proofs.Outcome

/-!
# What objects lead to

The items of a container, the objects of a dictionary, what a function captures, and the attributes
of anything else are the parts of an object. A handle has none, and neither has a class or a member
without a dictionary. An object is quiet when its parts can be told and its class has no say in
them. Storing new values and expressions leaves the parts of what was there as they are.
-/

namespace TensorGraph

namespace Heap

open Number.Numeral (digitLimit)

/-- An object holds another one, under a name. -/
inductive Holds (h : Heap) (a : Address) : String → Address → Prop
  | inList {items : List Address} {i : Nat} {b : Address} (object : h.get? a = some (.list items))
      (item : items[i]? = some b) : Holds h a (toString i) b
  | inTuple {items : List Address} {i : Nat} {b : Address}
      (object : h.get? a = some (.tuple items)) (item : items[i]? = some b) :
      Holds h a (toString i) b
  | inDictionary {entries : Entries} {key : Value} {b : Address}
      (object : h.get? a = some (.dict entries)) (entry : (key, b) ∈ entries) :
      Holds h a key.inFull b
  | inClosure {f : Function} {attrs : Address} {name : String} {b : Address}
      (function : h.function? a = some (f, attrs)) (entry : (name, some b) ∈ f.captured) :
      Holds h a name b
  | asAttribute {name : String} {b : Address} (other : h.contents? a = none)
      (entry : (.text name, b) ∈ h.attributesOf a) (shown : isPrivate name = false) :
      Holds h a name b

/-- Following what objects hold leads from an object to another one, the names joined to a path. -/
inductive Leads (h : Heap) : String → Address → String → Address → Prop
  | here (path : String) (a : Address) : Leads h path a path a
  | part {path path' name : String} {a b c : Address} (holds : h.Holds a name b)
      (rest : Leads h (joinName path name) b path' c) : Leads h path a path' c

/-- An object as an expression, where it is one. -/
def expr? (h : Heap) (a : Address) : Option Expr :=
  match h.get? a with
  | some (.expr e) => some e
  | _ => none

theorem expr?_eq_some_iff {h : Heap} {a : Address} {e : Expr} :
    h.expr? a = some e ↔ h.get? a = some (.expr e) := by
  simp only [expr?]
  split
  · rename_i e' ho
    rw [ho]
    simp
  · rename_i hne
    constructor
    · intro he
      cases he
    · intro ho
      exact absurd ho (hne e)

/-- A path that begins elsewhere leads to the same objects. -/
theorem Leads.exists_rebase {h : Heap} {path path' : String} {a b : Address}
    (hl : h.Leads path a path' b) (start : String) : ∃ path'', h.Leads start a path'' b := by
  induction hl generalizing start with
  | here path a => exact ⟨start, .here start a⟩
  | part hholds _ ih =>
    obtain ⟨path'', hrest⟩ := ih (joinName start _)
    exact ⟨path'', .part hholds hrest⟩

/-! ### Quiet objects -/

/-- The parts of an object with their names, or why they cannot be told. -/
def tells (h : Heap) (a : Address) : Except Error Parts :=
  (h.contents? a).getD (visible (h.attributesOf a))

/-- The parts of an object with their names, if they can be told. -/
def parts (h : Heap) (a : Address) : Parts := (h.tells a).toOption.getD []

/-- The attributes by which a class has a say in what a member holds. What can be called is asked
for a closure, too; what lacks one or a dictionary may make up for it. -/
def hooks (h : Heap) (a : Address) (c : MadeClass) : List String :=
  ["__getattribute__", "__class__", "__dict__"] ++
    (if h.isCallable a then ["__closure__"] else []) ++
    (if h.isCallable a || !c.layout.hasDictionary then ["__getattr__"] else [])

/-- The dictionary of a member of a class. -/
def dictionaryOf? (h : Heap) (a : Address) : Option (Address × Entries) :=
  match h.get? a with
  | some (.member _ attrs _) =>
    match h.get? attrs with
    | some (.dict entries) => some (attrs, entries)
    | _ => none
  | _ => none

def isMethod (h : Heap) (a : Address) : Bool :=
  match h.get? a with
  | some (.method ..) => true
  | _ => false

/-- A member has a dictionary where its class says so, and no attributes in one otherwise. -/
def LaidOut (h : Heap) (a : Address) (c : MadeClass) : Prop :=
  if c.layout.hasDictionary then h.dictionaryOf? a ≠ none else h.attributesOf a = []

instance (h : Heap) (a : Address) (c : MadeClass) : Decidable (h.LaidOut a c) := by
  unfold LaidOut
  infer_instance

/-- An object is no handle, and its parts can be told without asking its class. -/
structure Quiet (h : Heap) (a : Address) : Prop where
  noHandle : h.handle? a = none
  /-- The names of the parts can be written, attributes go by texts, and nothing captured is
  missing. -/
  told : (h.tells a).toOption.isSome
  /-- Only functions have closures. -/
  closure : h.isCallable a → h.function? a = none →
    ∀ c ∈ h.ownAttribute? a "__closure__", h.isTrue c = false
  method : h.isMethod a → (h.function? a).isSome
  laidOut : ∀ c ∈ h.madeClassOf? a, h.LaidOut a c.2
  /-- The class leaves it to its members. -/
  silent : ∀ c ∈ h.madeClassOf? a, ∀ name ∈ h.hooks a c.2, c.2.attrs.get? name = none

instance (h : Heap) (a : Address) : Decidable (h.Quiet a) :=
  decidable_of_iff
    (h.handle? a = none ∧ (h.tells a).toOption.isSome ∧
      (h.isCallable a → h.function? a = none →
        ∀ c ∈ h.ownAttribute? a "__closure__", h.isTrue c = false) ∧
      (h.isMethod a → (h.function? a).isSome) ∧
      (∀ c ∈ h.madeClassOf? a, h.LaidOut a c.2) ∧
      ∀ c ∈ h.madeClassOf? a, ∀ name ∈ h.hooks a c.2, c.2.attrs.get? name = none)
    ⟨fun ⟨hx, ht, hc, hm, hl, hs⟩ => ⟨hx, ht, hc, hm, hl, hs⟩,
      fun ⟨hx, ht, hc, hm, hl, hs⟩ => ⟨hx, ht, hc, hm, hl, hs⟩⟩

theorem mem_numbered {items : List Address} {name : String} {b : Address} :
    (name, b) ∈ numbered items ↔ ∃ i : Nat, toString i = name ∧ items[i]? = some b := by
  rw [List.mem_iff_getElem?]
  refine exists_congr fun i => ?_
  simp only [numbered]
  rw [List.getElem?_zip_eq_some, List.getElem?_map]
  by_cases hi : i < items.length
  · simp [hi]
  · have hnone : items[i]? = none := List.getElem?_eq_none (by omega)
    simp [hnone]

/-- The attributes that are not private. -/
theorem mem_visible {entries : Entries} {found : Parts} (h : visible entries = .ok found)
    {name : String} {b : Address} :
    (name, b) ∈ found ↔ isPrivate name = false ∧ (.text name, b) ∈ entries := by
  induction entries using List.reverseRecOn generalizing found with
  | nil =>
    cases h
    simp
  | append_singleton entries entry ih =>
    obtain ⟨key, item⟩ := entry
    cases hbefore : visible entries with
    | error e =>
      simp only [visible] at h hbefore
      rw [List.foldlM_append, hbefore] at h
      cases h
    | ok before =>
      have hsame := ih hbefore
      simp only [visible] at h hbefore
      rw [List.foldlM_append, hbefore] at h
      cases key with
      | text s =>
        cases h
        by_cases hs : isPrivate s
        · rw [if_pos hs, hsame]
          have hne : isPrivate name = false → name ≠ s := by
            rintro hname rfl
            rw [hs] at hname
            cases hname
          grind
        · rw [if_neg hs]
          grind
      | _ => cases h

/-- Only functions are functions. -/
theorem function?_cases {h : Heap} {a : Address} {p : Function × Address}
    (hp : h.function? a = some p) :
    h.get? a = some (.function p.1 p.2) ∨
      ∃ f first, h.get? a = some (.method f first) ∧ h.get? f = some (.function p.1 p.2) := by
  simp only [function?] at hp
  split at hp
  · rename_i ho
    cases hp
    exact .inl ho
  · rename_i ho
    split at hp
    · rename_i hf
      cases hp
      exact .inr ⟨_, _, ho, hf⟩
    · cases hp
  · cases hp

theorem contents?_of_function? {h : Heap} {a : Address} {p : Function × Address}
    (hp : h.function? a = some p) :
    h.contents? a =
      if p.1.captured.isEmpty then none else some (p.1.captured.mapM capturedPart) := by
  simp only [contents?]
  obtain ho | ⟨f, first, ho, -⟩ := function?_cases hp
  · rw [ho, hp]
  · rw [ho, hp]

/-- What has contents is a container, a shape or a function that captures something. -/
theorem contents?_cases {h : Heap} {a : Address} {found : Except Error Parts}
    (hc : h.contents? a = some found) :
    (∃ items, (h.get? a = some (.list items) ∨ h.get? a = some (.tuple items)) ∧
      found = .ok (numbered items)) ∨
    (∃ entries, h.get? a = some (.dict entries) ∧
      found = entries.mapM (entryPart (some digitLimit))) ∨
    (∃ s attrs, h.get? a = some (.shape s attrs) ∧ found = .ok []) ∨
    ∃ p, h.function? a = some p ∧ p.1.captured ≠ [] ∧
      found = p.1.captured.mapM capturedPart := by
  simp only [contents?] at hc
  split at hc
  · rename_i ho
    cases hc
    exact .inl ⟨_, .inl ho, rfl⟩
  · rename_i ho
    cases hc
    exact .inl ⟨_, .inr ho, rfl⟩
  · rename_i ho
    cases hc
    exact .inr (.inl ⟨_, ho, rfl⟩)
  · rename_i ho
    cases hc
    exact .inr (.inr (.inl ⟨_, _, ho, rfl⟩))
  · rename_i hf _ _ _ _
    split at hc
    · cases hc
    · rename_i hcaptured
      cases hc
      exact .inr (.inr (.inr ⟨_, hf, mt List.isEmpty_iff.mpr hcaptured, rfl⟩))
  · cases hc

theorem entryPart_eq_ok_iff {digits : Option Nat} {e : Value × Address} {name : String}
    {b : Address} : entryPart digits e = .ok (name, b) ↔
      e.1.isTooLong digits = false ∧ e.1.inFull = name ∧ e.2 = b := by
  rw [entryPart]
  cases htoo : e.1.isTooLong digits <;>
    simp [Value.shown, htoo, bind, Except.bind, pure, Except.pure]

theorem capturedPart_eq_ok_iff {c : String × Option Address} {name : String} {b : Address} :
    capturedPart c = .ok (name, b) ↔ c = (name, some b) := by
  obtain ⟨s, item⟩ := c
  cases item <;> simp [capturedPart]

theorem Quiet.exists_tells {h : Heap} {a : Address} (hquiet : h.Quiet a) :
    ∃ found, h.tells a = .ok found := by
  have htold := hquiet.told
  cases ht : h.tells a with
  | ok found => exact ⟨found, rfl⟩
  | error e =>
    rw [ht] at htold
    cases htold

theorem parts_of_tells {h : Heap} {a : Address} {found : Parts} (ht : h.tells a = .ok found) :
    h.parts a = found := by
  simp only [parts, ht, Except.toOption, Option.getD_some]

/-- Handles hold nothing. -/
theorem not_holds_of_expr {h : Heap} {a b : Address} {name : String} {e : Expr}
    (ha : h.get? a = some (.expr e)) : ¬h.Holds a name b := by
  have hfunction : h.function? a = none := by simp only [function?, ha]
  intro hholds
  cases hholds with
  | inList ho _ | inTuple ho _ | inDictionary ho _ =>
    rw [ha] at ho
    cases ho
  | inClosure hf _ =>
    rw [hfunction] at hf
    cases hf
  | asAttribute _ he _ =>
    simp only [attributesOf, ha, hfunction] at he
    cases he

/-- What holds something is no handle. -/
theorem Holds.expr?_eq_none {h : Heap} {a b : Address} {name : String} (hb : h.Holds a name b) :
    h.expr? a = none := by
  cases hx : h.expr? a with
  | none => rfl
  | some e => exact absurd hb (not_holds_of_expr (expr?_eq_some_iff.mp hx))

theorem holds_of_mem_tells {h : Heap} {a : Address} {found : Parts} (ht : h.tells a = .ok found)
    {name : String} {b : Address} (hmem : (name, b) ∈ found) : h.Holds a name b := by
  rw [tells] at ht
  cases hc : h.contents? a with
  | none =>
    rw [hc, Option.getD_none] at ht
    obtain ⟨hshown, hentry⟩ := (mem_visible ht).mp hmem
    exact .asAttribute hc hentry hshown
  | some told =>
    rw [hc, Option.getD_some] at ht
    rcases contents?_cases hc with ⟨items, ho, rfl⟩ | ⟨entries, ho, rfl⟩ | ⟨s, attrs, ho, rfl⟩ |
      ⟨p, hp, -, rfl⟩
    · cases ht
      obtain ⟨i, rfl, hi⟩ := mem_numbered.mp hmem
      rcases ho with ho | ho
      · exact .inList ho hi
      · exact .inTuple ho hi
    · obtain ⟨⟨key, item⟩, hentry, hpart⟩ := (mem_of_mapM_eq_ok ht).2 _ hmem
      obtain ⟨-, rfl, rfl⟩ := entryPart_eq_ok_iff.mp hpart
      exact .inDictionary ho hentry
    · cases ht
      cases hmem
    · obtain ⟨c, hentry, hpart⟩ := (mem_of_mapM_eq_ok ht).2 _ hmem
      obtain rfl := capturedPart_eq_ok_iff.mp hpart
      exact .inClosure hp hentry

theorem Holds.mem_of_tells {h : Heap} {a b : Address} {name : String} (hb : h.Holds a name b)
    {found : Parts} (ht : h.tells a = .ok found) : (name, b) ∈ found := by
  cases hb with
  | inList ho hi | inTuple ho hi =>
    simp only [tells, contents?, ho, Option.getD_some] at ht
    cases ht
    exact mem_numbered.mpr ⟨_, rfl, hi⟩
  | inDictionary ho he =>
    simp only [tells, contents?, ho, Option.getD_some] at ht
    obtain ⟨⟨name, c⟩, hmem, hpart⟩ := (mem_of_mapM_eq_ok ht).1 _ he
    obtain ⟨-, rfl, rfl⟩ := entryPart_eq_ok_iff.mp hpart
    exact hmem
  | inClosure hf he =>
    have hcaptured := List.isEmpty_eq_false_iff.mpr (List.ne_nil_of_mem he)
    rw [tells, contents?_of_function? hf, hcaptured] at ht
    obtain ⟨⟨name, c⟩, hmem, hpart⟩ := (mem_of_mapM_eq_ok ht).1 _ he
    cases capturedPart_eq_ok_iff.mp hpart
    exact hmem
  | asAttribute hc he hs =>
    rw [tells, hc] at ht
    exact (mem_visible ht).mpr ⟨hs, he⟩

theorem mem_parts {h : Heap} {a : Address} (hquiet : h.Quiet a) {name : String} {b : Address} :
    (name, b) ∈ h.parts a ↔ h.Holds a name b := by
  obtain ⟨found, ht⟩ := hquiet.exists_tells
  rw [parts_of_tells ht]
  exact ⟨holds_of_mem_tells ht, fun hb => hb.mem_of_tells ht⟩

/-! ### Bare objects -/

/-- No object stands at an address, or one that is a value. -/
def IsValueAt (h : Heap) (a : Address) : Prop := h.get? a = none ∨ ∃ v, h.get? a = some (.value v)

/-- No object stands at an address, or one that is a value or an expression. -/
def IsBareAt (h : Heap) (a : Address) : Prop := h.IsValueAt a ∨ ∃ e, h.get? a = some (.expr e)

section Bare

variable {h : Heap} {a : Address}

theorem entries_of_bare (ha : h.IsBareAt a) : h.entries a = [] := by
  rcases ha with (ho | ⟨v, ho⟩) | ⟨e, ho⟩ <;> simp only [entries, ho]

theorem madeClass?_of_bare (ha : h.IsBareAt a) : h.madeClass? a = none := by
  rcases ha with (ho | ⟨v, ho⟩) | ⟨e, ho⟩ <;> simp only [madeClass?, ho]

theorem madeClassOf?_of_bare (ha : h.IsBareAt a) : h.madeClassOf? a = none := by
  rcases ha with (ho | ⟨v, ho⟩) | ⟨e, ho⟩ <;> simp only [madeClassOf?, ho]

theorem isMethod_of_bare (ha : h.IsBareAt a) : h.isMethod a = false := by
  rcases ha with (ho | ⟨v, ho⟩) | ⟨e, ho⟩ <;> simp only [isMethod, ho]

theorem isCallable_of_bare (ha : h.IsBareAt a) : h.isCallable a = false := by
  rcases ha with (ho | ⟨v, ho⟩) | ⟨e, ho⟩ <;> simp only [isCallable, ho]

theorem function?_of_bare (ha : h.IsBareAt a) : h.function? a = none := by
  rcases ha with (ho | ⟨v, ho⟩) | ⟨e, ho⟩ <;> simp only [function?, ho]

theorem ownAttribute?_of_bare (ha : h.IsBareAt a) (name : String) :
    h.ownAttribute? a name = none := by
  rcases ha with (ho | ⟨v, ho⟩) | ⟨e, ho⟩ <;> simp only [ownAttribute?, ho]

theorem attributesOf_of_bare (ha : h.IsBareAt a) : h.attributesOf a = [] := by
  have hf := function?_of_bare ha
  rcases ha with (ho | ⟨v, ho⟩) | ⟨e, ho⟩ <;> simp only [attributesOf, ho, hf]

theorem contents?_of_bare (ha : h.IsBareAt a) : h.contents? a = none := by
  have hf := function?_of_bare ha
  rcases ha with (ho | ⟨v, ho⟩) | ⟨e, ho⟩ <;> simp only [contents?, ho, hf]

theorem dictionaryOf?_of_bare (ha : h.IsBareAt a) : h.dictionaryOf? a = none := by
  rcases ha with (ho | ⟨v, ho⟩) | ⟨e, ho⟩ <;> simp only [dictionaryOf?, ho]

end Bare

/-- Two heaps differ in values and expressions only. -/
def Similar (h h' : Heap) : Prop :=
  ∀ a, h'.get? a = h.get? a ∨ h.IsBareAt a ∧ h'.IsBareAt a

namespace Similar

variable {h h' : Heap}

theorem entries (hs : h.Similar h') (a : Address) : h'.entries a = h.entries a := by
  rcases hs a with heq | ⟨hbare, hbare'⟩
  · simp only [Heap.entries, heq]
  · rw [entries_of_bare hbare, entries_of_bare hbare']

theorem madeClass? (hs : h.Similar h') (a : Address) : h'.madeClass? a = h.madeClass? a := by
  rcases hs a with heq | ⟨hbare, hbare'⟩
  · simp only [Heap.madeClass?, heq]
  · rw [madeClass?_of_bare hbare, madeClass?_of_bare hbare']

theorem madeClassOf? (hs : h.Similar h') (a : Address) :
    h'.madeClassOf? a = h.madeClassOf? a := by
  rcases hs a with heq | ⟨hbare, hbare'⟩
  · simp only [Heap.madeClassOf?, heq, hs.madeClass?]
  · rw [madeClassOf?_of_bare hbare, madeClassOf?_of_bare hbare']

theorem isMethod (hs : h.Similar h') (a : Address) : h'.isMethod a = h.isMethod a := by
  rcases hs a with heq | ⟨hbare, hbare'⟩
  · simp only [Heap.isMethod, heq]
  · rw [isMethod_of_bare hbare, isMethod_of_bare hbare']

/-- What is asked of a function alone. -/
theorem functionAt (hs : h.Similar h') {α : Type} (f : Function → Address → α) (other : α)
    (a : Address) :
    (match h'.get? a with
      | some (.function g attrs) => f g attrs
      | _ => other) =
    match h.get? a with
    | some (.function g attrs) => f g attrs
    | _ => other := by
  have hother : ∀ {h : Heap}, h.IsBareAt a → (match h.get? a with
      | some (.function g attrs) => f g attrs
      | _ => other) = other := by
    rintro h ((ho | ⟨v, ho⟩) | ⟨e, ho⟩) <;> simp only [ho]
  rcases hs a with heq | ⟨hbare, hbare'⟩
  · rw [heq]
  · rw [hother hbare, hother hbare']

theorem function? (hs : h.Similar h') (a : Address) : h'.function? a = h.function? a := by
  rcases hs a with heq | ⟨hbare, hbare'⟩
  · simp only [Heap.function?, heq]
    split
    · rfl
    · exact hs.functionAt (fun g attrs => some (g, attrs)) none _
    · rfl
  · rw [function?_of_bare hbare, function?_of_bare hbare']

theorem ownAttribute? (hs : h.Similar h') (a : Address) (name : String) :
    h'.ownAttribute? a name = h.ownAttribute? a name := by
  rcases hs a with heq | ⟨hbare, hbare'⟩
  · simp only [Heap.ownAttribute?, ownAttribute?.inDictionary, heq, hs.entries]
    split
    · rfl
    · rfl
    · rfl
    · exact hs.functionAt (fun _ attrs => (h.entries attrs).get? (.text name)) none _
    · rfl
    · rfl
  · rw [ownAttribute?_of_bare hbare, ownAttribute?_of_bare hbare']

theorem attributesOf (hs : h.Similar h') (a : Address) :
    h'.attributesOf a = h.attributesOf a := by
  rcases hs a with heq | ⟨hbare, hbare'⟩
  · simp only [Heap.attributesOf, heq, hs.function?, hs.entries]
  · rw [attributesOf_of_bare hbare, attributesOf_of_bare hbare']

theorem contents? (hs : h.Similar h') (a : Address) : h'.contents? a = h.contents? a := by
  rcases hs a with heq | ⟨hbare, hbare'⟩
  · simp only [Heap.contents?, heq, hs.function?]
  · rw [contents?_of_bare hbare, contents?_of_bare hbare']

/-- What is asked of a dictionary alone. -/
theorem dictionaryAt (hs : h.Similar h') (attrs : Address) :
    (match h'.get? attrs with
      | some (.dict entries) => some (attrs, entries)
      | _ => none) =
    match h.get? attrs with
    | some (.dict entries) => some (attrs, entries)
    | _ => none := by
  have hnone : ∀ {h : Heap}, h.IsBareAt attrs → (match h.get? attrs with
      | some (.dict entries) => some (attrs, entries)
      | _ => none) = none := by
    rintro h ((ho | ⟨v, ho⟩) | ⟨e, ho⟩) <;> simp only [ho]
  rcases hs attrs with heq | ⟨hbare, hbare'⟩
  · rw [heq]
  · rw [hnone hbare, hnone hbare']

theorem dictionaryOf? (hs : h.Similar h') (a : Address) :
    h'.dictionaryOf? a = h.dictionaryOf? a := by
  rcases hs a with heq | ⟨hbare, hbare'⟩
  · simp only [Heap.dictionaryOf?, heq]
    split
    · exact hs.dictionaryAt _
    · rfl
  · rw [dictionaryOf?_of_bare hbare, dictionaryOf?_of_bare hbare']

theorem isCallable (hs : h.Similar h') (a : Address) : h'.isCallable a = h.isCallable a := by
  have hclass : ∀ c name, h'.hasInClass c name = h.hasInClass c name := by
    intro c name
    simp only [hasInClass, classAttribute?, hs.madeClass?]
  rcases hs a with heq | ⟨hbare, hbare'⟩
  · simp only [Heap.isCallable, heq, hclass]
  · rw [isCallable_of_bare hbare, isCallable_of_bare hbare']

theorem tells (hs : h.Similar h') (a : Address) : h'.tells a = h.tells a := by
  rw [Heap.tells, Heap.tells, hs.contents?, hs.attributesOf]

theorem parts (hs : h.Similar h') (a : Address) : h'.parts a = h.parts a := by
  rw [Heap.parts, Heap.parts, hs.tells]

/-- What is no handle stays quiet, where nothing becomes true that was not. -/
theorem quiet (hs : h.Similar h') {a : Address} (hq : h.Quiet a) (ha : h'.handle? a = none)
    (hfalse : ∀ c, h.isTrue c = false → h'.isTrue c = false) : h'.Quiet a := by
  constructor
  · exact ha
  · rw [hs.tells]
    exact hq.told
  · rw [hs.isCallable, hs.function?, hs.ownAttribute?]
    exact fun hcall hf c hc => hfalse c (hq.closure hcall hf c hc)
  · rw [hs.isMethod, hs.function?]
    exact hq.method
  · rw [hs.madeClassOf?]
    intro c hc
    rw [LaidOut, hs.dictionaryOf?, hs.attributesOf]
    exact hq.laidOut c hc
  · rw [hs.madeClassOf?]
    intro c hc
    rw [hooks, hs.isCallable]
    exact hq.silent c hc

end Similar

/-! ### Adding objects -/

/-- All objects stay, and those that are new satisfy a condition. -/
def Adds (P : Object → Prop) (h h' : Heap) : Prop :=
  ∀ a, h'.get? a = h.get? a ∨ h.get? a = none ∧ ∃ o, P o ∧ h'.get? a = some o

end Heap

def Object.IsValue (o : Object) : Prop := ∃ v, o = .value v

/-- An object that is a value or an expression. -/
def Object.IsBare (o : Object) : Prop := o.IsValue ∨ ∃ e, o = .expr e

namespace Heap.Adds

variable {P Q : Object → Prop} {h h' h'' : Heap}

theorem refl (P : Object → Prop) (h : Heap) : h.Adds P h := fun _ => .inl rfl

theorem trans (hl : h.Adds P h') (hr : h'.Adds P h'') : h.Adds P h'' := by
  intro a
  rcases hl a with heq | ⟨hnone, o, hP, ho⟩
  · rw [← heq]
    exact hr a
  · rcases hr a with heq' | ⟨hnone', -⟩
    · exact .inr ⟨hnone, o, hP, heq'.trans ho⟩
    · rw [hnone'] at ho
      cases ho

theorem mono (ha : h.Adds P h') (hPQ : ∀ o, P o → Q o) : h.Adds Q h' := fun a =>
  (ha a).imp_right fun ⟨hnone, o, hP, ho⟩ => ⟨hnone, o, hPQ o hP, ho⟩

theorem alloc (h : Heap) {o : Object} (ho : P o) : h.Adds P (h.alloc o).2 := by
  intro a
  rw [get?_alloc]
  split
  · rename_i ha
    refine .inr ⟨?_, o, ho, rfl⟩
    rw [ha, get?]
    exact Array.getElem?_eq_none (Nat.le_refl _)
  · exact .inl rfl

/-- What was there is still there. -/
theorem get?_eq (ha : h.Adds P h') {a : Address} {o : Object} (ho : h.get? a = some o) :
    h'.get? a = some o := by
  rcases ha a with heq | ⟨hnone, -⟩
  · rw [heq, ho]
  · rw [hnone] at ho
    cases ho

theorem handle?_eq (ha : h.Adds P h') {a : Address} (hsome : (h.get? a).isSome) :
    h'.handle? a = h.handle? a := by
  obtain ⟨o, ho⟩ := Option.isSome_iff_exists.mp hsome
  simp only [handle?, ho, ha.get?_eq ho]

theorem similar (ha : h.Adds Object.IsBare h') : h.Similar h' := by
  intro a
  rcases ha a with heq | ⟨hnone, o, ⟨v, rfl⟩ | ⟨e, rfl⟩, ho⟩
  · exact .inl heq
  · exact .inr ⟨.inl (.inl hnone), .inl (.inr ⟨v, ho⟩)⟩
  · exact .inr ⟨.inl (.inl hnone), .inr ⟨e, ho⟩⟩

/-- What does not count as true is there. -/
theorem isTrue_eq_false (ha : h.Adds P h') {c : Address} (hc : h.isTrue c = false) :
    h'.isTrue c = false := by
  cases ho : h.get? c with
  | none =>
    simp only [isTrue, ho] at hc
    cases hc
  | some o => simpa only [isTrue, ho, ha.get?_eq ho] using hc

/-- What was there is as quiet as it was. -/
theorem quiet (ha : h.Adds Object.IsBare h') {a : Address} (hsome : (h.get? a).isSome)
    (hq : h.Quiet a) : h'.Quiet a :=
  ha.similar.quiet hq ((ha.handle?_eq hsome).trans hq.noHandle) fun _ => ha.isTrue_eq_false

theorem bare (ha : h.Adds Object.IsValue h') : h.Adds Object.IsBare h' := ha.mono fun _ => .inl

/-- A new value is no handle. -/
theorem handle?_of_values (ha : h.Adds Object.IsValue h') (a : Address) :
    h'.handle? a = h.handle? a := by
  rcases ha a with heq | ⟨hnone, o, ⟨v, rfl⟩, ho⟩
  · simp only [handle?, heq]
  · simp only [handle?, hnone, ho]

theorem quiet_of_values (ha : h.Adds Object.IsValue h') {a : Address} (hq : h.Quiet a) :
    h'.Quiet a :=
  ha.bare.similar.quiet hq ((ha.handle?_of_values a).trans hq.noHandle) fun _ => ha.isTrue_eq_false

theorem parts (ha : h.Adds Object.IsBare h') (a : Address) : h'.parts a = h.parts a :=
  ha.similar.parts a

end Heap.Adds

end TensorGraph
