import TensorGraph.Number.Decimal
import TensorGraph.Text.Blank

/-!
# Reading numerals

Numerals may stand between blanks, carry a sign, use the digits of any script, and hold single
underscores between two digits.
-/

namespace TensorGraph.Number.Numeral

open Text

/-- A character of a numeral: digits of every script are one kind. -/
inductive Symbol where
  | digit (value : Nat)
  | other (char : Char)
deriving DecidableEq, Repr

def Symbol.ofChar (c : Char) : Symbol :=
  match digit? c with
  | some d => .digit d
  | none => .other c

def symbols (s : String) : List Symbol := (trimBlanks s.toList).map .ofChar

/-- The sign in front, and what follows it. -/
def takeSign : List Symbol → Bool × List Symbol
  | .other '-' :: rest => (true, rest)
  | .other '+' :: rest => (false, rest)
  | rest => (false, rest)

/-- The digits in front, and what follows them. -/
def takeDigits : List Symbol → List Nat × List Symbol
  | .digit d :: rest =>
    let (ds, rest) := takeDigits rest
    (d :: ds, rest)
  | rest => ([], rest)

def natOfDigits (ds : List Nat) : Nat := ds.foldl (fun n d => 10 * n + d) 0

/-- Takes the underscores between two digits away; an underscore elsewhere is refused. -/
def joinDigits? (afterDigit : Bool) : List Symbol → Option (List Symbol)
  | [] => some []
  | .other '_' :: .digit d :: rest =>
    if afterDigit then (joinDigits? true rest).map (.digit d :: ·) else none
  | .other '_' :: _ => none
  | .digit d :: rest => (joinDigits? true rest).map (.digit d :: ·)
  | .other c :: rest => (joinDigits? false rest).map (.other c :: ·)

/-- Digits with single underscores between them, and what follows; nothing when an underscore is
left over. -/
def takeGroups? (afterDigit : Bool) : List Symbol → Option (List Nat × List Symbol)
  | .other '_' :: .digit d :: rest =>
    if afterDigit then (takeGroups? true rest).map fun r => (d :: r.1, r.2) else none
  | .other '_' :: _ => none
  | .digit d :: rest => (takeGroups? true rest).map fun r => (d :: r.1, r.2)
  | rest => some ([], rest)

/-- Integer numerals hold at most this many digits. -/
def digitLimit : Nat := 4300

inductive IntegerFault where
  | malformed
  | tooLong (count : Nat)
deriving DecidableEq, Repr

/-- Too many digits are refused before what follows them is looked at. -/
def readInteger (s : String) : Except IntegerFault Int :=
  let (negative, rest) := takeSign (symbols s)
  match takeGroups? false rest with
  | none => .error .malformed
  | some ([], _) => .error .malformed
  | some (ds, rest) =>
    if digitLimit < ds.length then .error (.tooLong ds.length)
    else
      match rest with
      | [] => .ok (if negative then -(natOfDigits ds : Int) else natOfDigits ds)
      | _ :: _ => .error .malformed

def Symbol.lower? : Symbol → Option Char
  | .other c => some c.toLower
  | .digit _ => none

/-- The letters of a word, in lower case; nothing when it holds a digit. -/
def word? (rest : List Symbol) : Option String := (rest.mapM Symbol.lower?).map String.ofList

/-- The exponent part of a numeral, zero when there is none. -/
def exponent? : List Symbol → Option Int
  | [] => some 0
  | .other c :: rest =>
    if c = 'e' ∨ c = 'E' then
      let (negative, rest) := takeSign rest
      match takeDigits rest with
      | ([], _) => none
      | (ds, []) => some (if negative then -(natOfDigits ds : Int) else natOfDigits ds)
      | _ => none
    else none
  | .digit _ :: _ => none

/-- Digits with or without a point among them, and an exponent. -/
def decimal? (rest : List Symbol) : Option Decimal :=
  let (whole, rest) := takeDigits rest
  let (part, rest) :=
    match rest with
    | .other '.' :: rest => takeDigits rest
    | rest => ([], rest)
  if whole.isEmpty && part.isEmpty then none
  else (exponent? rest).map fun e => ⟨natOfDigits (whole ++ part), e - part.length⟩

/-- A decimal, an infinity or the undefined number; nothing when the text is none of them. -/
def readFloating? (s : String) : Option Floating := do
  let rest ← joinDigits? false (symbols s)
  let (negative, rest) := takeSign rest
  match word? rest with
  | some "inf" | some "infinity" => some (.infinite negative)
  | some "nan" => some .undefined
  | _ => (decimal? rest).map (·.toFloating binary64 negative)

example : takeGroups? false [.digit 1, .other '_', .digit 0] = some ([1, 0], []) := by decide
example : takeGroups? false [.digit 1, .other '_', .other '_', .digit 0] = none := by decide

end TensorGraph.Number.Numeral
