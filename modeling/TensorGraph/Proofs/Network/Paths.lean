import TensorGraph.Proofs.Network.Holding

/-!
# Paths

A path joins the names on a way by dots. Where no name has a dot and every object tells its parts
apart by their names, a path says which object it leads to.
-/

namespace TensorGraph

/-- A name that can be found again in a path. -/
def IsSegment (name : String) : Prop := name ≠ "" ∧ '.' ∉ name.toList

instance (name : String) : Decidable (IsSegment name) := inferInstanceAs (Decidable (_ ∧ _))

theorem isSegment_toString (n : Nat) : IsSegment (toString n) := by
  have hdigits : (toString n).toList = Nat.toDigits 10 n := String.toList_ofList
  constructor
  · intro hempty
    rw [hempty] at hdigits
    exact Nat.toDigits_ne_nil hdigits.symm
  · rw [hdigits]
    intro hdot
    have hdigit : '.'.isDigit = true := Nat.isDigit_of_mem_toDigits (by decide) (by decide) hdot
    exact absurd hdigit (by decide)

/-- A longer path keeps what a shorter one begins with. -/
theorem exists_toList_joinName (path : String) : ∃ start : List Char,
    path.toList.length ≤ start.length ∧
      ∀ name, (joinName path name).toList = start ++ name.toList := by
  by_cases hpath : path.isEmpty
  · refine ⟨[], ?_, fun name => ?_⟩
    · rw [String.isEmpty_iff.mp hpath]
      exact Nat.zero_le _
    · rw [joinName, if_pos hpath, List.nil_append]
  · refine ⟨path.toList ++ ['.'], ?_, fun name => ?_⟩
    · rw [List.length_append]
      exact Nat.le_add_right ..
    · rw [joinName, if_neg hpath, String.toList_append, String.toList_append]
      rfl

theorem toList_joinName {path : String} (hpath : path ≠ "") (name : String) :
    (joinName path name).toList = path.toList ++ '.' :: name.toList := by
  rw [joinName, if_neg (mt String.isEmpty_iff.mp hpath), String.toList_append,
    String.toList_append, List.append_assoc]
  rfl

theorem joinName_ne_empty {name : String} (hname : IsSegment name) (path : String) :
    joinName path name ≠ "" := by
  obtain ⟨start, -, hjoin⟩ := exists_toList_joinName path
  intro hempty
  have hnil := hjoin name
  rw [hempty] at hnil
  exact hname.1 (String.toList_eq_nil_iff.mp (List.append_eq_nil_iff.mp hnil.symm).2)

/-- What a path goes on with: nothing, or a dot and more. -/
def Continues (rest : List Char) : Prop := rest = [] ∨ ∃ more, rest = '.' :: more

/-- The segment that a path begins with ends at the first dot. -/
theorem takeWhile_segment {name : String} (hname : IsSegment name) {rest : List Char}
    (hrest : Continues rest) : (name.toList ++ rest).takeWhile (· != '.') = name.toList := by
  have hall : ∀ c ∈ name.toList, (c != '.') = true := by
    intro c hc
    rw [bne_iff_ne]
    rintro rfl
    exact hname.2 hc
  rw [List.takeWhile_append_of_pos hall]
  rcases hrest with rfl | ⟨more, rfl⟩
  · rw [List.takeWhile_nil, List.append_nil]
  · rw [List.takeWhile_cons_of_neg (by decide), List.append_nil]

namespace Heap

/-- The names of the parts on a way from an object to another one. -/
inductive Way (h : Heap) : Address → List String → Address → Prop
  | stay (a : Address) : Way h a [] a
  | onward {a b c : Address} {name : String} {names : List String} (holds : h.Holds a name b)
      (rest : Way h b names c) : Way h a (name :: names) c

/-- A path is what the names on a way give, folded onto where it starts. -/
theorem leads_iff_way {h : Heap} {path path' : String} {a b : Address} :
    h.Leads path a path' b ↔ ∃ names, h.Way a names b ∧ names.foldl joinName path = path' := by
  constructor
  · intro hb
    induction hb with
    | here path a => exact ⟨[], .stay a, rfl⟩
    | part hholds _ ih =>
      obtain ⟨names, hway, hpath⟩ := ih
      exact ⟨_ :: names, .onward hholds hway, hpath⟩
  · rintro ⟨names, hway, rfl⟩
    induction hway generalizing path with
    | stay a => exact .here path a
    | onward hholds _ ih => exact .part hholds ih

/-- An object tells its parts apart: by names that can be found again in a path. -/
structure TellsApart (h : Heap) (a : Address) : Prop where
  segment : ∀ name b, h.Holds a name b → IsSegment name
  unique : ∀ name b c, h.Holds a name b → h.Holds a name c → b = c

/-- All that an object leads to tells its parts apart. -/
def Unambiguous (h : Heap) (a : Address) : Prop :=
  ∀ path path' b, h.Leads path a path' b → h.TellsApart b

variable {h : Heap} {a b c : Address} {path path' name : String}

theorem Unambiguous.tellsApart (ha : h.Unambiguous a) : h.TellsApart a := ha "" "" a (.here "" a)

theorem Unambiguous.of_holds (ha : h.Unambiguous a) (hb : h.Holds a name b) :
    h.Unambiguous b := by
  intro path path' c hc
  obtain ⟨path'', hc⟩ := hc.exists_rebase (joinName "" name)
  exact ha "" path'' c (.part hb hc)

/-- A path goes on with further names. -/
theorem Leads.exists_continues (ha : h.Unambiguous a) (hl : h.Leads path a path' b)
    (hpath : path ≠ "") : ∃ rest, path'.toList = path.toList ++ rest ∧ Continues rest := by
  induction hl with
  | here path a => exact ⟨[], (List.append_nil _).symm, .inl rfl⟩
  | @part path path' name a b c hholds _ ih =>
    have hname := ha.tellsApart.segment name b hholds
    obtain ⟨rest, hrest, -⟩ := ih (ha.of_holds hholds) (joinName_ne_empty hname path)
    rw [toList_joinName hpath, List.append_assoc, List.cons_append] at hrest
    exact ⟨_, hrest, .inr ⟨_, rfl⟩⟩

/-- The first name on the way is at the place where the path so far ends. -/
theorem Leads.exists_part (ha : h.Unambiguous a) (hholds : h.Holds a name b)
    (hl : h.Leads (joinName path name) b path' c) : ∃ rest, Continues rest ∧
      path'.toList = (joinName path name).toList ++ rest := by
  have hname := ha.tellsApart.segment name b hholds
  obtain ⟨rest, hrest, hcontinues⟩ :=
    hl.exists_continues (ha.of_holds hholds) (joinName_ne_empty hname path)
  exact ⟨rest, hcontinues, hrest⟩

/-- A step leads to a longer path. -/
theorem Leads.ne_of_part (ha : h.Unambiguous a) (hholds : h.Holds a name b)
    (hl : h.Leads (joinName path name) b path' c) : path' ≠ path := by
  obtain ⟨rest, -, hrest⟩ := hl.exists_part ha hholds
  obtain ⟨start, hle, hjoin⟩ := exists_toList_joinName path
  have hname : 0 < name.toList.length := by
    rw [List.length_pos_iff]
    exact mt String.toList_eq_nil_iff.mp (ha.tellsApart.segment name b hholds).1
  rintro rfl
  have hlength := congrArg List.length hrest
  rw [hjoin, List.length_append, List.length_append] at hlength
  omega

/-- A path leads to one object. -/
theorem Leads.unique (ha : h.Unambiguous a) (hb : h.Leads path a path' b)
    (hc : h.Leads path a path' c) : b = c := by
  induction hb with
  | here path a =>
    cases hc with
    | here => rfl
    | part hholds hrest => exact absurd rfl (hrest.ne_of_part ha hholds)
  | @part path path' name a b' b hholds hrest ih =>
    cases hc with
    | here => exact absurd rfl (hrest.ne_of_part ha hholds)
    | @part _ _ name' _ c' _ hholds' hrest' =>
      -- both ways begin with the segment that the path has next
      have hsame : name = name' := by
        obtain ⟨start, -, hjoin⟩ := exists_toList_joinName path
        obtain ⟨rest, hcontinues, hfirst⟩ := hrest.exists_part ha hholds
        obtain ⟨rest', hcontinues', hsecond⟩ := hrest'.exists_part ha hholds'
        rw [hjoin, List.append_assoc] at hfirst hsecond
        have hboth := List.append_cancel_left (hfirst.symm.trans hsecond)
        have hwhile := congrArg (List.takeWhile (· != '.')) hboth
        rw [takeWhile_segment (ha.tellsApart.segment _ _ hholds) hcontinues,
          takeWhile_segment (ha.tellsApart.segment _ _ hholds') hcontinues'] at hwhile
        exact String.toList_inj.mp hwhile
      subst hsame
      obtain rfl := ha.tellsApart.unique name b' c' hholds hholds'
      exact ih (ha.of_holds hholds) hrest'

end Heap

end TensorGraph
