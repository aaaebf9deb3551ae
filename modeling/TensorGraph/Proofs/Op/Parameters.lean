import TensorGraph.Op.Basic

/-!
# Integer parameters

The parameters of an operation are meant to be integers. Then operations are told apart by their
class, the fill of a padding and the integers, whatever the width of these: two operations have one
signature exactly when they agree in all of that.
-/

namespace TensorGraph

namespace Value

theorem signature_of_index? {v : Value} {n : Int} (h : v.index? = some n) :
    v.signature = [.number n] := by
  cases v <;> simp_all [index?, signature]

/-- Values that stand for integers are as many, and have the signature of these. -/
theorem signatures_of_index? {vs : List Value} {ns : List Int} (h : vs.mapM index? = some ns) :
    vs.length = ns.length ∧ signatures vs = ns.map .number := by
  induction vs generalizing ns with
  | nil =>
    cases h
    exact ⟨rfl, rfl⟩
  | cons v vs ih =>
    simp only [List.mapM_cons, Option.bind_eq_bind, Option.bind_eq_some_iff, Option.pure_def,
      Option.some.injEq] at h
    obtain ⟨n, hn, ns, hns, rfl⟩ := h
    obtain ⟨hlength, hsignatures⟩ := ih hns
    refine ⟨by simp [hlength], ?_⟩
    rw [signatures, signature_of_index? hn, hsignatures]
    rfl

/-- The integer that a piece of a signature is. -/
def Token.number? : Token → Option Int
  | .number n => some n
  | _ => Option.none

/-- The name that a piece of a signature is. -/
def Token.name? : Token → Option String
  | .name s => some s
  | _ => Option.none

theorem filterMap_number? (ns : List Int) : (ns.map Token.number).filterMap Token.number? = ns := by
  rw [List.filterMap_map]
  exact List.filterMap_some

theorem filterMap_name? (tag : List String) : (tag.map Token.name).filterMap Token.name? = tag := by
  rw [List.filterMap_map]
  exact List.filterMap_some

end Value

namespace Op

open Value

/-- The parameters as integers, if all of them are and a padding has a fill: truth values count,
and any width. -/
def integers? : Op → Option (List Int)
  | .permute axes => axes.mapM index?
  | .pad _ _ (.value _) => none
  | op => op.parameters.mapM index?

/-- A signature put together from a class and integers. The axes of a permutation are a tuple. -/
def spelled (tag : List String) (ns : List Int) : List Token :=
  tag.map .name ++ ((if tag = ["PERMUTE"] then [.tuple ns.length] else []) ++ ns.map .number)

theorem signature_of_integers {op : Op} {ns : List Int} (h : op.integers? = some ns) :
    op.signature = spelled op.tag ns := by
  cases op with
  | permute axes =>
    obtain ⟨hlength, hsignatures⟩ := signatures_of_index? h
    simp [signature, spelled, tag, parameters, signatures, Value.signature, hlength, hsignatures]
  | primitive p =>
    cases h
    cases p <;> simp [signature, spelled, tag, parameters, signatures, Primitive.name]
  | pad axis amount border =>
    cases border with
    | fill f =>
      simp [signature, spelled, tag, Border.tag, parameters, ← (signatures_of_index? h).2]
    | value v => cases h
  | _ => simp [signature, spelled, tag, parameters, ← (signatures_of_index? h).2]

theorem spelled_injective {tag tag' : List String} {ns ms : List Int}
    (h : spelled tag ns = spelled tag' ms) : tag = tag' ∧ ns = ms := by
  have hname : ∀ (tag : List String) (ns : List Int),
      (spelled tag ns).filterMap Token.name? = tag := by
    intro tag ns
    have hnone : (ns.map Token.number).filterMap Token.name? = [] := by
      simp [Token.name?]
    rw [spelled, List.filterMap_append, filterMap_name?, List.filterMap_append, hnone]
    split <;> simp [Token.name?]
  have hnumber : ∀ (tag : List String) (ns : List Int),
      (spelled tag ns).filterMap Token.number? = ns := by
    intro tag ns
    have hnone : (tag.map Token.name).filterMap Token.number? = [] := by
      simp [Token.number?]
    rw [spelled, List.filterMap_append, hnone, List.filterMap_append, filterMap_number?]
    split <;> simp [Token.number?]
  constructor
  · rw [← hname tag ns, h, hname]
  · rw [← hnumber tag ns, h, hnumber]

/-- Operations with integer parameters are the same when their classes and integers are. -/
theorem signature_eq_iff {o o' : Op} {ns ms : List Int} (h : o.integers? = some ns)
    (h' : o'.integers? = some ms) : o.signature = o'.signature ↔ o.tag = o'.tag ∧ ns = ms := by
  rw [signature_of_integers h, signature_of_integers h']
  constructor
  · exact spelled_injective
  · rintro ⟨htag, rfl⟩
    rw [htag]

/-- No integer is undefined. -/
theorem isUndefined_of_integers {op : Op} {ns : List Int} (h : op.integers? = some ns) :
    op.isUndefined = false := by
  rw [isUndefined, signature_of_integers h, List.any_eq_false]
  intro t ht
  simp only [spelled, List.mem_append, List.mem_map] at ht
  rcases ht with ⟨s, -, rfl⟩ | ht | ⟨n, -, rfl⟩
  · simp [Token.isUndefined]
  · split at ht
    · rw [List.mem_singleton.mp ht]
      simp [Token.isUndefined]
    · cases ht
  · simp [Token.isUndefined]

end Op

end TensorGraph
