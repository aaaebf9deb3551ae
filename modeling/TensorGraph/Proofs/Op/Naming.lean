import TensorGraph.Op.Reading
import TensorGraph.Proofs.Op.Parameters
import TensorGraph.Proofs.Outcome

/-!
# Operations with names

An operation has a name when no integer in its parameters is too long for a text and a padding has a
fill. Operations with one signature have names alike, so an instruction that is asked for again has
a name when the recorded one has.
-/

namespace TensorGraph

namespace Value

variable {digits : Option Nat}

/-- What is made of a written value is made where it can be written. -/
theorem shown_bind_eq_ok_iff {α : Type} {v : Value} {f : String → Except Error α} {a : α} :
    v.shown digits >>= f = .ok a ↔ v.isTooLong digits = false ∧ f v.inFull = .ok a := by
  cases h : v.isTooLong digits <;> simp [shown, h, bind, Except.bind]

theorem mapM_shown_bind_eq_ok_iff {α : Type} {vs : List Value} {f : List String → Except Error α}
    {a : α} : vs.mapM (shown digits) >>= f = .ok a ↔
      vs.any (isTooLong digits) = false ∧ f (vs.map inFull) = .ok a := by
  induction vs generalizing f with
  | nil => simp [pure, Except.pure, bind, Except.bind]
  | cons v vs ih =>
    rw [List.mapM_cons, bind_assoc, shown_bind_eq_ok_iff, bind_assoc, ih, List.any_cons,
      Bool.or_eq_false_iff, and_assoc]
    rfl

theorem any_signatures (f : Token → Bool) (vs : List Value) :
    (signatures vs).any f = vs.any fun v => v.signature.any f := by
  induction vs with
  | nil => rfl
  | cons v vs ih => rw [signatures, List.any_append, ih, List.any_cons]

theorem isTooLong_tuple (vs : List Value) :
    (Value.tuple vs).isTooLong digits = vs.any (isTooLong digits) := by
  rw [isTooLong, signature, List.any_cons, any_signatures]
  rfl

mutual

/-- No piece of the signature of a value is the name of an operation. -/
theorem name?_signature : ∀ v : Value, v.signature.filterMap Token.name? = []
  | .none | .bool _ | .int _ | .sized .. | .undefined _ | .text _ => rfl
  | .float digits | .sizedFloat digits => by
    simp only [signature, floatToken]
    split <;> rfl
  | .list items | .tuple items => by
    rw [signature, List.filterMap_cons_none rfl, name?_signatures items]
  | .shape s => by
    simp [signature, Token.name?]

theorem name?_signatures : ∀ vs : List Value, (signatures vs).filterMap Token.name? = []
  | [] => rfl
  | v :: vs => by
    rw [signatures, List.filterMap_append, name?_signature v, name?_signatures vs, List.nil_append]

end

/-- Without a limit every integer can be written. -/
theorem Token.isTooLong_none (t : Token) : t.isTooLong Option.none = false := by
  cases t <;> rfl

theorem any_isTooLong_names (tag : List String) :
    (tag.map Token.name).any (Token.isTooLong digits) = false := by
  simp [Token.isTooLong]

end Value

namespace Op

open Value

variable {digits : Option Nat} {op op' : Op}

/-- The name of the operation can be written. -/
def Named (digits : Option Nat) (op : Op) : Prop := ∃ s, op.name digits = .ok s

instance (digits : Option Nat) (op : Op) : Decidable (op.Named digits) :=
  match h : op.name digits with
  | .ok s => isTrue ⟨s, h⟩
  | .error e => isFalse fun ⟨s, hs⟩ => by rw [h] at hs; cases hs

theorem any_isTooLong_signature (op : Op) :
    op.signature.any (Token.isTooLong digits) = op.parameters.any (isTooLong digits) := by
  rw [signature, List.any_append, any_isTooLong_names, Bool.false_or, any_signatures]
  rfl

/-- Of paddings, those without a fill have the class alone as their tag, and no other operation
has that one. -/
theorem tag_ne_pad (op : Op) (h : ∀ axis amount v, op ≠ .pad axis amount (.value v)) :
    op.tag ≠ ["PAD"] := by
  cases op with
  | primitive p => cases p <;> decide
  | pad axis amount border =>
    cases border with
    | fill f => exact fun htag => List.cons_ne_nil _ _ (List.tail_eq_of_cons_eq htag)
    | value v => exact absurd rfl (h axis amount v)
  | _ => simp [tag]

theorem pure_eq_ok_iff {t s : String} : (pure t : Except Error String) = .ok s ↔ t = s :=
  ⟨Except.ok.inj, congrArg Except.ok⟩

/-- A name is the text of the operation, where it can be written. -/
theorem name_eq_ok_iff {s : String} :
    op.name digits = .ok s ↔
      op.parameters.any (isTooLong digits) = false ∧ op.tag ≠ ["PAD"] ∧ op.text = s := by
  by_cases hborder : ∃ axis amount v, op = .pad axis amount (.value v)
  · obtain ⟨axis, amount, v, rfl⟩ := hborder
    rw [name, shown_bind_eq_ok_iff, shown_bind_eq_ok_iff]
    exact ⟨fun h => (by cases h.2.2), fun h => absurd rfl h.2.1⟩
  have htag : op.tag ≠ ["PAD"] :=
    op.tag_ne_pad fun axis amount v h => hborder ⟨axis, amount, v, h⟩
  simp only [ne_eq, htag, not_false_eq_true, true_and]
  have htwo : ∀ v w : Value, [v, w].any (isTooLong digits) = false ↔
      v.isTooLong digits = false ∧ w.isTooLong digits = false := by simp
  cases op with
  | primitive p => exact (and_iff_right rfl).symm.trans (and_congr_right' pure_eq_ok_iff)
  | broadcast axis count =>
    rw [name, shown_bind_eq_ok_iff, shown_bind_eq_ok_iff, parameters, htwo, and_assoc]
    exact and_congr_right' (and_congr_right' pure_eq_ok_iff)
  | cat axis | flip axis =>
    rw [name, shown_bind_eq_ok_iff, parameters, List.any_cons, List.any_nil, Bool.or_false]
    exact and_congr_right' pure_eq_ok_iff
  | permute axes =>
    rw [name, mapM_shown_bind_eq_ok_iff, parameters, List.any_cons, List.any_nil, Bool.or_false,
      isTooLong_tuple]
    exact and_congr_right' pure_eq_ok_iff
  | pad axis amount border =>
    cases border with
    | fill f =>
      rw [name, shown_bind_eq_ok_iff, shown_bind_eq_ok_iff, parameters, Border.parameters, htwo,
        and_assoc]
      exact and_congr_right' (and_congr_right' pure_eq_ok_iff)
    | value v => exact absurd ⟨axis, amount, v, rfl⟩ hborder

theorem named_iff :
    op.Named digits ↔ op.parameters.any (isTooLong digits) = false ∧ op.tag ≠ ["PAD"] := by
  simp only [Named, name_eq_ok_iff, exists_and_left, exists_eq', and_true]

theorem named_primitive (p : Primitive) : (primitive p).Named digits := ⟨p.name, rfl⟩

/-- A flip has a name unless its axis has too many digits. -/
theorem name_flip_int (limit : Nat) (n : Int) :
    (flip (.int n)).name (some limit) =
      if Nat.pow 10 limit ≤ n.natAbs then .error .integerTooLong else .ok (flip (.int n)).text := by
  have hlong : (Value.int n).isTooLong (some limit) = decide (Nat.pow 10 limit ≤ n.natAbs) := by
    simp [isTooLong, Token.isTooLong]
  rw [name, shown, hlong]
  by_cases h : Nat.pow 10 limit ≤ n.natAbs <;> simp only [h, decide_true, decide_false] <;> rfl

/-- The first power of ten that is too long. -/
theorem name_flip_pow (limit : Nat) :
    (flip (.int (Nat.pow 10 limit))).name (some limit) = .error .integerTooLong := by
  rw [name_flip_int, Int.natAbs_natCast]
  exact if_pos (Nat.le_refl _)

/-- Without a limit, operations with integer parameters have names. -/
theorem named_of_integers (h : op.integers?.isSome) : op.Named none := by
  rw [named_iff]
  refine ⟨?_, op.tag_ne_pad ?_⟩
  · simp [isTooLong, Token.isTooLong_none]
  · rintro axis amount v rfl
    cases h

/-! ### Names and signatures -/

/-- A signature tells the class and the fill. -/
theorem tag_eq_of_signature_eq (h : op.signature = op'.signature) : op.tag = op'.tag := by
  have htag : ∀ op : Op, op.signature.filterMap Token.name? = op.tag := by
    intro op
    rw [signature, List.filterMap_append, filterMap_name?, name?_signatures, List.append_nil]
  rw [← htag op, h, htag]

/-- Operations with one signature have names alike. -/
theorem named_congr (h : op.signature = op'.signature) : op.Named digits ↔ op'.Named digits := by
  rw [named_iff, named_iff, ← any_isTooLong_signature, ← any_isTooLong_signature, h,
    tag_eq_of_signature_eq h]

end Op

end TensorGraph
