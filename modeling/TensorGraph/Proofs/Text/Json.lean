import Mathlib.Algebra.Ring.Nat
import Mathlib.Data.List.TakeWhile
import TensorGraph.Text.Json

/-!
# Reading JSON text back

The text of a document tells the document. A number ends where its digits end, an escape says how
long it is, and everything else ends with a character of its own; so of two documents that are
written in front of rests which do not go on with a digit, the same characters come from the same
documents and the same rests.
-/

namespace TensorGraph

namespace Text

def hexValue (c : Char) : Nat :=
  if c.toNat < 'a'.toNat then c.toNat - '0'.toNat else c.toNat - 'a'.toNat + 10

/-- The number that hexadecimal digits write. -/
def readHex (cs : List Char) : Nat := cs.foldl (fun n c => 16 * n + hexValue c) 0

theorem hexValue_hexDigit {n : Nat} (h : n < 16) : hexValue (hexDigit n) = n := by
  have hall : ∀ n < 16, hexValue (hexDigit n) = n := by decide
  exact hall n h

theorem readHex_hexDigits (width n : Nat) : readHex (hexDigits width n) = n % 16 ^ width := by
  induction width generalizing n with
  | zero => rw [Nat.pow_zero, Nat.mod_one]; rfl
  | succ width ih =>
    have hdigit : hexValue (hexDigit (n % 16)) = n % 16 :=
      hexValue_hexDigit (Nat.mod_lt n (by decide))
    have hlast : readHex (hexDigits (width + 1) n) =
        16 * readHex (hexDigits width (n / 16)) + hexValue (hexDigit (n % 16)) := by
      simp [readHex, hexDigits]
    rw [hlast, ih, hdigit, Nat.pow_succ', Nat.mod_mul]
    omega

end Text

namespace Json

open Text

/-! ### Strings -/

/-- The character that a backslash and a letter stand for. -/
def unescaped (c : Char) : Char :=
  if c = 'n' then '\n'
  else if c = 'r' then '\r'
  else if c = 't' then '\t'
  else if c = 'b' then '\x08'
  else if c = 'f' then '\x0c'
  else c

/-- The character that escaped text starts with, and the text after it. -/
def readChar : List Char → Char × List Char
  | '\\' :: 'u' :: rest =>
    let u := readHex (rest.take 4)
    if 0xd800 ≤ u ∧ u < 0xdc00 then
      -- the second surrogate comes with a backslash and a letter of its own
      let v := readHex ((rest.drop 6).take 4)
      (Char.ofNat (0x10000 + (u - 0xd800) * 0x400 + (v - 0xdc00)), rest.drop 10)
    else (Char.ofNat u, rest.drop 4)
  | '\\' :: c :: rest => (unescaped c, rest)
  | c :: rest => (c, rest)
  | [] => default

theorem readChar_plain {c : Char} (h : c ≠ '\\') (rest : List Char) :
    readChar (c :: rest) = (c, rest) := by
  unfold readChar
  split <;> simp_all

/-- An escape of one code unit. -/
def escapeUnit (u : Nat) : List Char := '\\' :: 'u' :: hexDigits 4 u

theorem readHex_take_hexDigits {u : Nat} (h : u < 0x10000) (rest : List Char) :
    readHex ((hexDigits 4 u ++ rest).take 4) = u := by
  have hpow : 16 ^ 4 = 0x10000 := by decide
  rw [List.take_left' (length_hexDigits 4 u), readHex_hexDigits, hpow, Nat.mod_eq_of_lt h]

theorem readChar_unit {u : Nat} (h : u < 0x10000) (hu : ¬(0xd800 ≤ u ∧ u < 0xdc00))
    (rest : List Char) : readChar (escapeUnit u ++ rest) = (Char.ofNat u, rest) := by
  simp only [escapeUnit, List.cons_append, readChar, readHex_take_hexDigits h, if_neg hu,
    List.drop_left' (length_hexDigits 4 u)]

theorem readChar_surrogates {u v : Nat} (hu : 0xd800 ≤ u ∧ u < 0xdc00) (hv : v < 0x10000)
    (rest : List Char) : readChar (escapeUnit u ++ (escapeUnit v ++ rest)) =
      (Char.ofNat (0x10000 + (u - 0xd800) * 0x400 + (v - 0xdc00)), rest) := by
  have hlt : u < 0x10000 := by omega
  have hdrop : ∀ {front back : List Char} {n : Nat}, front.length = n →
      (front ++ back).drop n = back := fun h => List.drop_left' h
  have h6 : (hexDigits 4 u ++ '\\' :: 'u' :: (hexDigits 4 v ++ rest)).drop 6 =
      hexDigits 4 v ++ rest := by
    rw [List.append_cons, List.append_cons, hdrop (by simp)]
  have h10 : (hexDigits 4 u ++ '\\' :: 'u' :: (hexDigits 4 v ++ rest)).drop 10 = rest := by
    rw [List.append_cons, List.append_cons, ← List.append_assoc, hdrop (by simp)]
  simp only [escapeUnit, List.cons_append, readChar, readHex_take_hexDigits hlt, if_pos hu, h6,
    h10, readHex_take_hexDigits hv]

theorem readChar_units (c : Char) (rest : List Char) :
    readChar ((units c).flatMap escapeUnit ++ rest) = (c, rest) := by
  have hvalid := c.valid
  simp only [UInt32.isValidChar, Nat.isValidChar] at hvalid
  have hn : c.val.toNat = c.toNat := rfl
  rw [hn] at hvalid
  simp only [units]
  split
  · rename_i hlt
    rw [List.flatMap_singleton, readChar_unit hlt (by omega), Char.ofNat_toNat]
  · have hu : 0xd800 ≤ 0xd800 + (c.toNat - 0x10000) / 0x400 ∧
        0xd800 + (c.toNat - 0x10000) / 0x400 < 0xdc00 := by omega
    have hv : 0xdc00 + (c.toNat - 0x10000) % 0x400 < 0x10000 := by omega
    rw [List.flatMap_cons, List.flatMap_singleton, List.append_assoc, readChar_surrogates hu hv]
    have hsum : 0x10000 + (0xd800 + (c.toNat - 0x10000) / 0x400 - 0xd800) * 0x400 +
        (0xdc00 + (c.toNat - 0x10000) % 0x400 - 0xdc00) = c.toNat := by omega
    rw [hsum, Char.ofNat_toNat]

/-- The escape of a character reads as the character. -/
theorem readChar_escapeChar (c : Char) (rest : List Char) :
    readChar (escapeChar c ++ rest) = (c, rest) := by
  simp only [escapeChar]
  split
  · rename_i hc
    rcases hc with rfl | rfl <;> rfl
  split
  · subst c
    rfl
  split
  · subst c
    rfl
  split
  · subst c
    rfl
  split
  · subst c
    rfl
  split
  · subst c
    rfl
  split
  · rename_i hc _ _ _ _ _ _
    exact readChar_plain (fun h => hc (.inr h)) rest
  · exact readChar_units c rest

/-- A quote inside a string is escaped, so the first plain one ends the string. -/
theorem escapeChar_ne_quote (c : Char) (rest rest' : List Char) :
    escapeChar c ++ rest ≠ '"' :: rest' := by
  intro h
  have hread := congrArg readChar h
  rw [readChar_escapeChar, readChar_plain (by decide)] at hread
  obtain ⟨rfl, -⟩ := Prod.mk.inj hread
  exact absurd (List.cons.inj h).1 (by decide)

theorem writeString_injective {cs ds r s : List Char} (h : writeString cs r = writeString ds s) :
    cs = ds ∧ r = s := by
  simp only [writeString, List.cons_append, List.cons.injEq, true_and] at h
  induction cs generalizing ds with
  | nil =>
    cases ds with
    | nil => exact ⟨rfl, (List.cons.inj h).2⟩
    | cons d ds =>
      rw [List.flatMap_cons, List.append_assoc] at h
      exact absurd h.symm (escapeChar_ne_quote d _ _)
  | cons c cs ih =>
    rw [List.flatMap_cons, List.append_assoc] at h
    cases ds with
    | nil => exact absurd h (escapeChar_ne_quote c _ _)
    | cons d ds =>
      rw [List.flatMap_cons, List.append_assoc] at h
      have hread := congrArg readChar h
      rw [readChar_escapeChar, readChar_escapeChar] at hread
      obtain ⟨rfl, htail⟩ := Prod.mk.inj hread
      obtain ⟨rfl, hrest⟩ := ih htail
      exact ⟨rfl, hrest⟩

/-! ### Numbers -/

/-- A rest that does not go on with a digit. -/
def Ends (rest : List Char) : Prop := ∀ c ∈ rest.head?, c.isDigit = false

theorem ends_nil : Ends [] := fun _ h => by cases h

theorem ends_cons {c : Char} (h : c.isDigit = false) (rest : List Char) : Ends (c :: rest) := by
  intro d hd
  cases hd
  exact h

theorem toDigits_injective {m n : Nat} {r s : List Char} (hr : Ends r) (hs : Ends s)
    (h : Nat.toDigits 10 m ++ r = Nat.toDigits 10 n ++ s) : m = n ∧ r = s := by
  have hsplit : ∀ (k : Nat) {t : List Char}, Ends t →
      (Nat.toDigits 10 k ++ t).takeWhile Char.isDigit = Nat.toDigits 10 k ∧
      (Nat.toDigits 10 k ++ t).dropWhile Char.isDigit = t := by
    intro k t ht
    have hdigits : ∀ c ∈ Nat.toDigits 10 k, c.isDigit = true := fun c hc =>
      Nat.isDigit_of_mem_toDigits (by decide) (by decide) hc
    rw [List.takeWhile_append_of_pos hdigits, List.dropWhile_append_of_pos hdigits]
    cases t with
    | nil => simp
    | cons c t => simp [ht c rfl]
  have hdigits : Nat.toDigits 10 m = Nat.toDigits 10 n := by
    rw [← (hsplit m hr).1, h, (hsplit n hs).1]
  constructor
  · rw [← Nat.ofDigitChars_ten_toDigits (n := m), hdigits, Nat.ofDigitChars_ten_toDigits]
  · rw [← (hsplit m hr).2, h, (hsplit n hs).2]

theorem toDigits_ne_cons {c : Char} (hc : c.isDigit = false) (n : Nat) (r s : List Char) :
    Nat.toDigits 10 n ++ r ≠ c :: s := by
  intro h
  cases hdigits : Nat.toDigits 10 n with
  | nil => exact Nat.toDigits_ne_nil hdigits
  | cons d ds =>
    rw [hdigits] at h
    have hd : d.isDigit = true :=
      Nat.isDigit_of_mem_toDigits (by decide) (by decide) (hdigits ▸ List.mem_cons_self ..)
    rw [(List.cons.inj h).1, hc] at hd
    cases hd

/-- What is written tells what it was written for, and where it ends. -/
def Readable {α : Type} (write : α → List Char → List Char) (x : α) : Prop :=
  ∀ y r s, Ends r → Ends s → write x r = write y s → x = y ∧ r = s

/-! ### Items and fields -/

section Each

variable {α : Type} (write : α → List Char → List Char)

/-- Further items, with a comma before each. -/
def writeMore (xs : List α) (rest : List Char) : List Char :=
  xs.foldr (fun x rest => ',' :: write x rest) rest

/-- Items with commas between them. -/
def writeEach : List α → List Char → List Char
  | [], rest => rest
  | x :: xs, rest => write x (writeMore write xs rest)

variable {write}

theorem ends_writeMore {rest : List Char} (h : Ends rest) (xs : List α) :
    Ends (writeMore write xs rest) := by
  cases xs with
  | nil => exact h
  | cons x xs => exact ends_cons (by decide) _

theorem writeMore_injective {close : Char} (hclose : close.isDigit = false) (hcomma : close ≠ ',')
    {xs ys : List α} (hxs : ∀ x ∈ xs, Readable write x) {r s : List Char}
    (h : writeMore write xs (close :: r) = writeMore write ys (close :: s)) : xs = ys ∧ r = s := by
  induction xs generalizing ys with
  | nil =>
    cases ys with
    | nil => exact ⟨rfl, (List.cons.inj h).2⟩
    | cons y ys => exact absurd (List.cons.inj h).1 hcomma
  | cons x xs ih =>
    cases ys with
    | nil => exact absurd (List.cons.inj h).1.symm hcomma
    | cons y ys =>
      obtain ⟨rfl, htail⟩ := hxs x (List.mem_cons_self ..) y _ _
        (ends_writeMore (ends_cons hclose r) xs) (ends_writeMore (ends_cons hclose s) ys)
        (List.cons.inj h).2
      obtain ⟨rfl, hrest⟩ := ih (fun z hz => hxs z (List.mem_cons_of_mem x hz)) htail
      exact ⟨rfl, hrest⟩

/-- Items are told by a closing character that none of them starts with. -/
theorem writeEach_injective {close : Char} (hclose : close.isDigit = false) (hcomma : close ≠ ',')
    (hfirst : ∀ x r s, write x r ≠ close :: s) {xs ys : List α}
    (hxs : ∀ x ∈ xs, Readable write x) {r s : List Char}
    (h : writeEach write xs (close :: r) = writeEach write ys (close :: s)) : xs = ys ∧ r = s := by
  cases xs with
  | nil =>
    cases ys with
    | nil => exact ⟨rfl, (List.cons.inj h).2⟩
    | cons y ys => exact absurd h.symm (hfirst y _ _)
  | cons x xs =>
    cases ys with
    | nil => exact absurd h (hfirst x _ _)
    | cons y ys =>
      obtain ⟨rfl, htail⟩ := hxs x (List.mem_cons_self ..) y _ _
        (ends_writeMore (ends_cons hclose r) xs) (ends_writeMore (ends_cons hclose s) ys) h
      obtain ⟨rfl, hrest⟩ := writeMore_injective hclose hcomma
        (fun z hz => hxs z (List.mem_cons_of_mem x hz)) htail
      exact ⟨rfl, hrest⟩

end Each

theorem writeItems_eq (items : List Json) (rest : List Char) :
    writeItems items rest = writeEach write items rest := by
  induction items with
  | nil => rfl
  | cons item items ih =>
    cases items with
    | nil => rfl
    | cons item' items => exact congrArg (fun r => item.write (',' :: r)) ih

theorem writeFields_eq (fields : List (String × Json)) (rest : List Char) :
    writeFields fields rest = writeEach writeField fields rest := by
  induction fields with
  | nil => rfl
  | cons field fields ih =>
    cases fields with
    | nil => rfl
    | cons field' fields => exact congrArg (fun r => writeField field (',' :: r)) ih

/-! ### Documents -/

theorem write_ne_bracket (j : Json) (r s : List Char) : j.write r ≠ ']' :: s := by
  cases j with
  | bool b => cases b <;> simp [write]
  | nat n => exact toDigits_ne_cons (by decide) n r s
  | string t => simp [write, writeString]
  | array items => simp [write]
  | object fields => simp [write]

theorem writeField_ne_brace (field : String × Json) (r s : List Char) :
    writeField field r ≠ '\x7d' :: s := by
  obtain ⟨name, value⟩ := field
  simp [writeField, writeString]

theorem bool_readable (b : Bool) : Readable write (.bool b) := by
  intro k r s _ _ h
  cases k with
  | bool b' => cases b <;> cases b' <;> simp_all [write]
  | nat n => cases b <;> exact absurd h.symm (toDigits_ne_cons (by decide) n s _)
  | _ => cases b <;> simp [write, writeString] at h

theorem nat_readable (n : Nat) : Readable write (.nat n) := by
  intro k r s hr hs h
  cases k with
  | nat m =>
    obtain ⟨rfl, hrest⟩ := toDigits_injective hr hs h
    exact ⟨rfl, hrest⟩
  | bool b => cases b <;> exact absurd h (toDigits_ne_cons (by decide) n r _)
  | _ => exact absurd h (toDigits_ne_cons (by decide) n r _)

theorem string_readable (t : String) : Readable write (.string t) := by
  intro k r s _ _ h
  cases k with
  | string t' =>
    obtain ⟨hchars, hrest⟩ := writeString_injective h
    rw [String.toList_inj.mp hchars]
    exact ⟨rfl, hrest⟩
  | nat n => exact absurd h.symm (toDigits_ne_cons (by decide) n s _)
  | bool b => cases b <;> simp [write, writeString] at h
  | _ => simp [write, writeString] at h

theorem array_readable {items : List Json} (hitems : ∀ item ∈ items, Readable write item) :
    Readable write (.array items) := by
  intro k r s _ _ h
  cases k with
  | array items' =>
    have h := (List.cons.inj h).2
    rw [writeItems_eq, writeItems_eq] at h
    obtain ⟨rfl, hrest⟩ :=
      writeEach_injective (by decide) (by decide) write_ne_bracket hitems h
    exact ⟨rfl, hrest⟩
  | nat n => exact absurd h.symm (toDigits_ne_cons (by decide) n s _)
  | bool b => cases b <;> simp [write] at h
  | _ => simp [write, writeString] at h

theorem object_readable {fields : List (String × Json)}
    (hfields : ∀ field ∈ fields, Readable writeField field) : Readable write (.object fields) := by
  intro k r s _ _ h
  cases k with
  | object fields' =>
    have h := (List.cons.inj h).2
    rw [writeFields_eq, writeFields_eq] at h
    obtain ⟨rfl, hrest⟩ :=
      writeEach_injective (by decide) (by decide) writeField_ne_brace hfields h
    exact ⟨rfl, hrest⟩
  | nat n => exact absurd h.symm (toDigits_ne_cons (by decide) n s _)
  | bool b => cases b <;> simp [write] at h
  | _ => simp [write, writeString] at h

mutual

theorem write_readable : (j : Json) → Readable write j
  | .bool b => bool_readable b
  | .nat n => nat_readable n
  | .string t => string_readable t
  | .array items => array_readable (items_readable items)
  | .object fields => object_readable (fields_readable fields)

theorem items_readable : (items : List Json) → ∀ item ∈ items, Readable write item
  | [] => by simp
  | item :: items => List.forall_mem_cons.mpr ⟨write_readable item, items_readable items⟩

theorem fields_readable :
    (fields : List (String × Json)) → ∀ field ∈ fields, Readable writeField field
  | [] => by simp
  | field :: fields => List.forall_mem_cons.mpr ⟨field_readable field, fields_readable fields⟩

theorem field_readable : (field : String × Json) → Readable writeField field
  | (name, value) => by
    rintro ⟨name', value'⟩ r s hr hs h
    obtain ⟨hname, hvalue⟩ := writeString_injective h
    obtain ⟨hvalue, hrest⟩ := write_readable value _ r s hr hs (List.cons.inj hvalue).2
    exact ⟨Prod.ext (String.toList_inj.mp hname) hvalue, hrest⟩

end

/-- Documents with one text are one document. -/
theorem text_injective {j k : Json} (h : j.text = k.text) : j = k :=
  (write_readable j k [] [] ends_nil ends_nil (String.ofList_injective h)).1

end Json

end TensorGraph
