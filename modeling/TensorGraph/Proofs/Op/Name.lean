import Mathlib.Data.List.TakeWhile
import TensorGraph.Op.Reading
import TensorGraph.Proofs.Op.Parameters

/-!
# Names of operations

The name of an operation with integer parameters tells its class, the fill of a padding and the
parameters, up to the width of integers. No integer is written with a comma or a parenthesis, so
the parts of a name can be told apart again, and an integer is told by its digits.
-/

namespace TensorGraph

/-- Lists that one function does not tell apart are not told apart by one that tells less. -/
theorem map_eq_of_map_eq {α β γ : Type} {f : α → β} {g : α → γ} {xs ys : List α}
    (hfg : ∀ x ∈ xs, ∀ y ∈ ys, f x = f y → g x = g y) (h : xs.map f = ys.map f) :
    xs.map g = ys.map g := by
  induction xs generalizing ys with
  | nil =>
    cases ys with
    | nil => rfl
    | cons y ys => cases h
  | cons x xs ih =>
    cases ys with
    | nil => cases h
    | cons y ys =>
      obtain ⟨hhead, htail⟩ := List.cons.inj h
      have hx : g x = g y := hfg x (List.mem_cons_self ..) y (List.mem_cons_self ..) hhead
      have hxs : xs.map g = ys.map g := by
        refine ih (fun z hz w hw => hfg z ?_ w ?_) htail
        · exact List.mem_cons_of_mem x hz
        · exact List.mem_cons_of_mem y hw
      rw [List.map_cons, List.map_cons, hx, hxs]

/-! ### Integers -/

namespace Text

/-- The integer that a sign and digits write. -/
def readInt : List Char → Int
  | '-' :: ds => -(Nat.ofDigitChars 10 ds 0 : Nat)
  | ds => (Nat.ofDigitChars 10 ds 0 : Nat)

theorem isDigit_of_mem_digits {c : Char} {n : Nat} (h : c ∈ Nat.toDigits 10 n) :
    c.isDigit = true :=
  Nat.isDigit_of_mem_toDigits (by decide) (by decide) h

theorem toList_toString_int (n : Int) : (toString n).toList =
    if 0 ≤ n then Nat.toDigits 10 n.toNat else '-' :: Nat.toDigits 10 (-n).toNat := by
  rw [Int.toString_eq_repr, Int.repr_eq_if]
  split
  · rw [Nat.repr_eq_ofList_toDigits, String.toList_ofList]
  · rw [Nat.repr_eq_ofList_toDigits, String.toList_append, String.toList_ofList]
    simp

theorem readInt_toString (n : Int) : readInt (toString n).toList = n := by
  rw [toList_toString_int]
  split
  · have hsign : ∀ ds, Nat.toDigits 10 n.toNat ≠ '-' :: ds := by
      intro ds h
      have hminus := isDigit_of_mem_digits (h ▸ List.mem_cons_self .. : '-' ∈ _)
      exact absurd hminus (by decide)
    unfold readInt
    split
    · rename_i heq
      exact absurd heq (hsign _)
    · rw [Nat.ofDigitChars_ten_toDigits]
      omega
  · simp only [readInt, Nat.ofDigitChars_ten_toDigits]
    omega

theorem mem_toString_int {n : Int} {c : Char} (h : c ∈ (toString n).toList) :
    c = '-' ∨ c.isDigit = true := by
  rw [toList_toString_int] at h
  split at h
  · exact .inr (isDigit_of_mem_digits h)
  · exact (List.mem_cons.mp h).imp_right isDigit_of_mem_digits

end Text

/-! ### Parameters -/

namespace Value

open Text

/-- An integer without its width. -/
def unsized : Value → Value
  | .sized _ n => .int n
  | v => v

@[simp] theorem index?_unsized (v : Value) : v.unsized.index? = v.index? := by
  cases v <;> rfl

/-- The integer or the truth value that is shown so. -/
def readInFull (cs : List Char) : Value :=
  if cs = ['T', 'r', 'u', 'e'] then .bool true
  else if cs = ['F', 'a', 'l', 's', 'e'] then .bool false
  else .int (readInt cs)

theorem readInFull_toString (n : Int) : readInFull (toString n).toList = .int n := by
  have hword : ∀ c cs, c ≠ '-' → c.isDigit = false → (toString n).toList ≠ c :: cs := by
    intro c cs hsign hdigit h
    rcases mem_toString_int (h ▸ List.mem_cons_self .. : c ∈ (toString n).toList) with hc | hc
    · exact hsign hc
    · rw [hdigit] at hc
      cases hc
  rw [readInFull, if_neg (hword 'T' _ (by decide) (by decide)),
    if_neg (hword 'F' _ (by decide) (by decide)), readInt_toString]

theorem readInFull_inFull {v : Value} (h : v.index?.isSome) :
    readInFull v.inFull.toList = v.unsized := by
  cases v with
  | int n => exact readInFull_toString n
  | sized width n => exact readInFull_toString n
  | bool b => cases b <;> rfl
  | _ => cases h

/-- What is shown of an integer tells it up to its width. -/
theorem unsized_eq_of_inFull_eq {v w : Value} (hv : v.index?.isSome) (hw : w.index?.isSome)
    (h : v.inFull = w.inFull) : v.unsized = w.unsized := by
  rw [← readInFull_inFull hv, h, readInFull_inFull hw]

/-- Something is shown of an integer, and no comma in it. -/
theorem inFull_of_index? {v : Value} (h : v.index?.isSome) :
    v.inFull.toList ≠ [] ∧ ',' ∉ v.inFull.toList := by
  have hint : ∀ n : Int, (toString n).toList ≠ [] ∧ ',' ∉ (toString n).toList := by
    intro n
    refine ⟨?_, fun hc => absurd (mem_toString_int hc) (by decide)⟩
    rw [toList_toString_int]
    split
    · exact Nat.toDigits_ne_nil
    · exact List.cons_ne_nil _ _
  cases v with
  | int n => exact hint n
  | sized width n => exact hint n
  | bool b => cases b <;> decide
  | _ => cases h

end Value

/-! ### Operations -/

def Border.unsized : Border → Border
  | .fill f => .fill f
  | .value v => .value v.unsized

namespace Op

/-- An operation whose parameters have no widths. -/
def unsized : Op → Op
  | .primitive p => .primitive p
  | .broadcast axis count => .broadcast axis.unsized count.unsized
  | .cat axis => .cat axis.unsized
  | .flip axis => .flip axis.unsized
  | .permute axes => .permute (axes.map Value.unsized)
  | .pad axis amount border => .pad axis.unsized amount.unsized border.unsized

/-- What the text starts with. -/
def label : Op → String
  | .primitive p => p.name
  | .broadcast .. => "BROADCAST"
  | .cat _ => "CAT"
  | .flip _ => "FLIP"
  | .permute _ => "PERMUTE"
  | .pad .. => "PAD"

/-- What stands in parentheses after the label, if anything can. -/
def parts? : Op → Option (List String)
  | .primitive _ => none
  | .broadcast axis count => some ["axis=" ++ axis.inFull, "count=" ++ count.inFull]
  | .cat axis => some ["axis=" ++ axis.inFull]
  | .flip axis => some ["axis=" ++ axis.inFull]
  | .permute axes => some (axes.map Value.inFull)
  | .pad axis amount border =>
    some ["axis=" ++ axis.inFull, "amt=" ++ amount.inFull, "kind=" ++ border.text]

/-- Parts in parentheses, with commas between them. -/
def enclosed (parts : List String) : List Char :=
  '(' :: (",".intercalate parts).toList ++ [')']

theorem toList_text (op : Op) :
    op.text.toList = op.label.toList ++ (op.parts?.map enclosed).getD [] := by
  unfold text
  cases op with
  | primitive p => simp only [label, parts?, Option.map_none, Option.getD_none, List.append_nil]
  | permute axes =>
    simp only [label, parts?, enclosed, Option.map_some, Option.getD_some, String.toList_append]
    simp
  | _ =>
    simp only [label, parts?, enclosed, Option.map_some, Option.getD_some,
      String.toList_append, String.toList_intercalate, List.map_cons, List.map_nil,
      List.intercalate_cons_cons, List.intercalate_singleton]
    simp

/-- The label ends at the parenthesis, if there is one. -/
theorem takeWhile_text (op : Op) : op.text.toList.takeWhile (· ≠ '(') = op.label.toList := by
  have hnot : '(' ∉ op.label.toList := by
    cases op with
    | primitive p => cases p <;> decide
    | _ =>
      simp only [label]
      decide
  have hlabel : ∀ c ∈ op.label.toList, decide (c ≠ '(') = true := by
    intro c hc
    rw [decide_eq_true_iff]
    rintro rfl
    exact hnot hc
  rw [toList_text, List.takeWhile_append_of_pos hlabel]
  cases op.parts? with
  | none => exact List.append_nil _
  | some parts => simp [enclosed]

/-- A part of a name is not empty and has no comma. -/
def IsPart (part : String) : Prop := part.toList ≠ [] ∧ ',' ∉ part.toList

theorem intercalate_injective {ps qs : List String} (hps : ∀ p ∈ ps, IsPart p)
    (hqs : ∀ q ∈ qs, IsPart q) (h : ",".intercalate ps = ",".intercalate qs) : ps = qs := by
  have hchars := congrArg String.toList h
  rw [String.toList_intercalate, String.toList_intercalate] at hchars
  have hcomma : ",".toList = [','] := by decide
  rw [hcomma] at hchars
  have hne : ∀ {p : String} {ps : List String}, IsPart p →
      [','].intercalate ((p :: ps).map String.toList) ≠ [] := by
    intro p ps hp
    cases ps <;> simp [List.intercalate_cons_cons, hp.1]
  cases ps with
  | nil =>
    cases qs with
    | nil => rfl
    | cons q qs => exact absurd hchars.symm (hne (hqs q (List.mem_cons_self ..)))
  | cons p ps =>
    cases qs with
    | nil => exact absurd hchars (hne (hps p (List.mem_cons_self ..)))
    | cons q qs =>
      have hsplit : ∀ {rs : List String}, (∀ r ∈ rs, IsPart r) → rs ≠ [] →
          List.splitOn ',' ([','].intercalate (rs.map String.toList)) = rs.map String.toList := by
        intro rs hrs hne
        refine List.splitOn_intercalate ',' ?_ (by simpa using hne)
        intro cs hcs
        obtain ⟨r, hr, rfl⟩ := List.mem_map.mp hcs
        exact (hrs r hr).2
      have hmap := hsplit hps (List.cons_ne_nil p ps)
      rw [hchars, hsplit hqs (List.cons_ne_nil q qs)] at hmap
      exact ((List.map_inj_right fun _ _ => String.toList_inj.mp).mp hmap).symm

theorem isPart_labelled {label : String} (hlabel : ',' ∉ label.toList) {v : Value}
    (hv : v.index?.isSome) : IsPart (label ++ v.inFull) := by
  obtain ⟨hne, hcomma⟩ := Value.inFull_of_index? hv
  constructor
  · simp [hne]
  · simp [hlabel, hcomma]

theorem border_of_integers {axis amount : Value} {border : Border}
    (h : (pad axis amount border).integers?.isSome) : ∃ f, border = .fill f := by
  cases border with
  | fill f => exact ⟨f, rfl⟩
  | value v => cases h

/-- The values that the integers of an operation are read from. -/
def values : Op → List Value
  | .permute axes => axes
  | op => op.parameters

theorem index?_isSome {op : Op} (h : op.integers?.isSome) :
    ∀ v ∈ op.values, v.index?.isSome := by
  have hall : ∀ {vs : List Value}, (vs.mapM Value.index?).isSome → ∀ v ∈ vs, v.index?.isSome := by
    intro vs hvs
    induction vs with
    | nil => simp
    | cons v vs ih =>
      obtain ⟨ns, hns⟩ := Option.isSome_iff_exists.mp hvs
      simp only [List.mapM_cons, Option.bind_eq_bind, Option.bind_eq_some_iff] at hns
      obtain ⟨n, hn, ms, hms, -⟩ := hns
      exact List.forall_mem_cons.mpr
        ⟨Option.isSome_iff_exists.mpr ⟨n, hn⟩, ih (Option.isSome_iff_exists.mpr ⟨ms, hms⟩)⟩
  cases op with
  | permute axes => exact hall h
  | pad axis amount border =>
    obtain ⟨f, rfl⟩ := border_of_integers h
    exact hall h
  | _ => exact hall h

/-- The parts of the name of an operation with integer parameters can be told apart. -/
theorem isPart_of_parts {op : Op} (h : op.integers?.isSome) {parts : List String}
    (hparts : op.parts? = some parts) : ∀ part ∈ parts, IsPart part := by
  have hv := index?_isSome h
  cases op with
  | primitive p => cases hparts
  | broadcast axis count =>
    cases hparts
    obtain ⟨haxis, hcount⟩ : axis.index?.isSome ∧ count.index?.isSome := by
      simpa [values, parameters] using hv
    have haxis := isPart_labelled (by decide : ',' ∉ "axis=".toList) haxis
    have hcount := isPart_labelled (by decide : ',' ∉ "count=".toList) hcount
    simp [haxis, hcount]
  | cat axis =>
    cases hparts
    have haxis : axis.index?.isSome := by simpa [values, parameters] using hv
    exact List.forall_mem_singleton.mpr (isPart_labelled (by decide) haxis)
  | flip axis =>
    cases hparts
    have haxis : axis.index?.isSome := by simpa [values, parameters] using hv
    exact List.forall_mem_singleton.mpr (isPart_labelled (by decide) haxis)
  | permute axes =>
    cases hparts
    intro part hpart
    obtain ⟨v, hmem, rfl⟩ := List.mem_map.mp hpart
    exact Value.inFull_of_index? (hv v hmem)
  | pad axis amount border =>
    cases hparts
    obtain ⟨f, rfl⟩ := border_of_integers h
    obtain ⟨haxis, hamount⟩ : axis.index?.isSome ∧ amount.index?.isSome := by
      simpa [values, parameters, Border.parameters] using hv
    have haxis := isPart_labelled (by decide : ',' ∉ "axis=".toList) haxis
    have hamount := isPart_labelled (by decide : ',' ∉ "amt=".toList) hamount
    have hfill : IsPart ("kind=" ++ f.name) := by
      simp only [IsPart]
      cases f <;> decide
    simp [haxis, hamount, hfill, Border.text]

theorem label_parts_of_text_eq {o o' : Op} (ho : o.integers?.isSome) (ho' : o'.integers?.isSome)
    (h : o.text = o'.text) : o.label = o'.label ∧ o.parts? = o'.parts? := by
  have hlabel : o.label.toList = o'.label.toList := by
    rw [← takeWhile_text, h, takeWhile_text]
  refine ⟨String.toList_inj.mp hlabel, ?_⟩
  have hrest : (o.parts?.map enclosed).getD [] = (o'.parts?.map enclosed).getD [] := by
    have hchars := congrArg String.toList h
    rw [toList_text, toList_text, hlabel] at hchars
    exact List.append_cancel_left hchars
  cases hp : o.parts? with
  | none =>
    cases hp' : o'.parts? with
    | none => rfl
    | some ps' => simp [hp, hp', enclosed] at hrest
  | some ps =>
    cases hp' : o'.parts? with
    | none => simp [hp, hp', enclosed] at hrest
    | some ps' =>
      have hinner : (",".intercalate ps).toList = (",".intercalate ps').toList := by
        simpa [hp, hp', enclosed] using hrest
      rw [intercalate_injective (isPart_of_parts ho hp) (isPart_of_parts ho' hp')
        (String.toList_inj.mp hinner)]

end Op

theorem Fill.name_injective {f g : Fill} (h : f.name = g.name) : f = g := by
  cases f <;> cases g <;> revert h <;> decide

namespace Op

/-- Operations with integer parameters and one name are the same up to the width of these. -/
theorem unsized_eq_of_text_eq {o o' : Op} (ho : o.integers?.isSome) (ho' : o'.integers?.isSome)
    (h : o.text = o'.text) : o.unsized = o'.unsized := by
  obtain ⟨hlabel, hparts⟩ := label_parts_of_text_eq ho ho' h
  have hsame : ∀ v ∈ o.values, ∀ w ∈ o'.values, v.inFull = w.inFull → v.unsized = w.unsized :=
    fun v hv w hw => Value.unsized_eq_of_inFull_eq (index?_isSome ho v hv) (index?_isSome ho' w hw)
  cases o with
  | primitive p =>
    cases o' with
    | primitive q => rw [Primitive.name_injective hlabel]
    | _ => cases hparts
  | broadcast axis count =>
    cases o' with
    | primitive q => cases hparts
    | broadcast axis' count' =>
      obtain ⟨haxis, hcount⟩ : axis.inFull = axis'.inFull ∧ count.inFull = count'.inFull := by
        simpa [parts?] using hparts
      simp only [unsized, broadcast.injEq]
      exact ⟨hsame axis (by simp [values, parameters]) axis' (by simp [values, parameters]) haxis,
        hsame count (by simp [values, parameters]) count' (by simp [values, parameters]) hcount⟩
    | _ => simp [label] at hlabel
  | cat axis =>
    cases o' with
    | primitive q => cases hparts
    | cat axis' =>
      have haxis : axis.inFull = axis'.inFull := by simpa [parts?] using hparts
      exact congrArg cat (hsame axis (List.mem_singleton_self _) axis' (List.mem_singleton_self _)
        haxis)
    | _ => simp [label] at hlabel
  | flip axis =>
    cases o' with
    | primitive q => cases hparts
    | flip axis' =>
      have haxis : axis.inFull = axis'.inFull := by simpa [parts?] using hparts
      exact congrArg flip (hsame axis (List.mem_singleton_self _) axis' (List.mem_singleton_self _)
        haxis)
    | _ => simp [label] at hlabel
  | permute axes =>
    cases o' with
    | primitive q => cases hparts
    | permute axes' =>
      have haxes : axes.map Value.inFull = axes'.map Value.inFull := Option.some.inj hparts
      exact congrArg permute (map_eq_of_map_eq hsame haxes)
    | _ => simp [label] at hlabel
  | pad axis amount border =>
    cases o' with
    | primitive q => cases hparts
    | pad axis' amount' border' =>
      obtain ⟨f, rfl⟩ := border_of_integers ho
      obtain ⟨f', rfl⟩ := border_of_integers ho'
      obtain ⟨haxis, hamount, hfill⟩ : axis.inFull = axis'.inFull ∧ amount.inFull = amount'.inFull ∧
          f.name = f'.name := by
        simpa [parts?, Border.text] using hparts
      simp only [unsized, pad.injEq]
      exact ⟨hsame axis (by simp [values, parameters]) axis' (by simp [values, parameters]) haxis,
        hsame amount (by simp [values, parameters]) amount' (by simp [values, parameters]) hamount,
        congrArg (fun g => Border.unsized (.fill g)) (Fill.name_injective hfill)⟩
    | _ => simp [label] at hlabel

/-! ### What widths do not matter to -/

theorem tag_unsized (o : Op) : o.unsized.tag = o.tag := by
  cases o with
  | pad axis amount border => cases border <;> rfl
  | _ => rfl

theorem values_unsized (o : Op) : o.unsized.values = o.values.map Value.unsized := by
  cases o with
  | pad axis amount border => cases border <;> rfl
  | _ => rfl

theorem integers?_unsized (o : Op) : o.unsized.integers? = o.integers? := by
  have hmap : ∀ vs : List Value,
      (vs.map Value.unsized).mapM Value.index? = vs.mapM Value.index? := by
    intro vs
    induction vs with
    | nil => rfl
    | cons v vs ih => rw [List.map_cons, List.mapM_cons, List.mapM_cons, ih, Value.index?_unsized]
  cases o with
  | permute axes => exact hmap axes
  | pad axis amount border =>
    cases border with
    | fill f => exact hmap [axis, amount]
    | value v => rfl
  | primitive p => rfl
  | broadcast axis count => exact hmap [axis, count]
  | cat axis => exact hmap [axis]
  | flip axis => exact hmap [axis]

/-- Widths do not matter to keys. -/
theorem signature_eq_of_unsized_eq {o o' : Op} (ho : o.integers?.isSome)
    (ho' : o'.integers?.isSome) (h : o.unsized = o'.unsized) : o.signature = o'.signature := by
  obtain ⟨ns, hns⟩ := Option.isSome_iff_exists.mp ho
  obtain ⟨ms, hms⟩ := Option.isSome_iff_exists.mp ho'
  refine (signature_eq_iff hns hms).mpr ⟨?_, ?_⟩
  · rw [← tag_unsized, h, tag_unsized]
  · rw [← integers?_unsized, h, integers?_unsized, hms] at hns
    exact (Option.some.inj hns).symm

end Op

theorem Value.equals_of_unsized_eq {v w : Value} (hv : v.index?.isSome) (hw : w.index?.isSome)
    (h : v.unsized = w.unsized) : v.equals w = .ok true := by
  obtain ⟨n, hn⟩ := Option.isSome_iff_exists.mp hv
  have hn' : w.index? = some n := by rw [← index?_unsized, ← h, index?_unsized, hn]
  have hsame : v.same w = true := by
    simp [same, signature_of_index? hn, signature_of_index? hn', Token.isUndefined]
  cases v <;> cases w <;> simp_all [equals, equalsPlain, isSized, isSequence, index?]

theorem Value.equalItems_of_unsized_eq {vs ws : List Value} (hvs : ∀ v ∈ vs, v.index?.isSome)
    (hws : ∀ w ∈ ws, w.index?.isSome) (h : vs.map unsized = ws.map unsized) :
    equalItems vs ws = .ok true := by
  induction vs generalizing ws with
  | nil =>
    cases ws with
    | nil => simp [equalItems]
    | cons w ws => cases h
  | cons v vs ih =>
    cases ws with
    | nil => cases h
    | cons w ws =>
      obtain ⟨hhead, htail⟩ := List.cons.inj h
      have hequals := equals_of_unsized_eq (hvs v (List.mem_cons_self ..))
        (hws w (List.mem_cons_self ..)) hhead
      simp only [equalItems, hequals]
      exact ih (fun v hv => hvs v (List.mem_cons_of_mem _ hv))
        (fun w hw => hws w (List.mem_cons_of_mem _ hw)) htail

namespace Op

/-- Operations that differ in widths only are equal. -/
theorem equals_of_unsized_eq {o o' : Op} (ho : o.integers?.isSome) (ho' : o'.integers?.isSome)
    (h : o.unsized = o'.unsized) : o.equals o' = .ok true := by
  have htag : o.tag = o'.tag := by rw [← tag_unsized, h, tag_unsized]
  have hvalues : o.values.map Value.unsized = o'.values.map Value.unsized := by
    rw [← values_unsized, h, values_unsized]
  have hitems := Value.equalItems_of_unsized_eq (index?_isSome ho) (index?_isSome ho') hvalues
  have hparameters : Value.equalItems o.parameters o'.parameters = .ok true := by
    cases o with
    | permute axes =>
      cases o' with
      | permute axes' =>
        simp only [values] at hitems
        simp [parameters, Value.equalItems, Value.equals, hitems]
      | _ => cases h
    | _ =>
      cases o' with
      | permute axes' => cases h
      | _ => exact hitems
  rw [equals, if_pos (congrArg List.head? htag), hparameters, htag]
  simp [Except.map]

end Op

end TensorGraph
