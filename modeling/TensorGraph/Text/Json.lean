import TensorGraph.Text.Hex

/-!
# Compact JSON text

Documents and their text: no blanks, numbers in decimal digits, and strings in ASCII only. A
character outside the basic plane is written as its two surrogate code units. Documents are
written in front of a rest, so that what is written last is never copied.
-/

namespace TensorGraph

inductive Json where
  | bool (b : Bool)
  | nat (n : Nat)
  | string (s : String)
  | array (items : List Json)
  | object (fields : List (String × Json))
deriving Inhabited

namespace Json

open Text

/-- The UTF-16 code units of a character. -/
def units (c : Char) : List Nat :=
  let n := c.toNat
  if n < 0x10000 then [n]
  else [0xd800 + (n - 0x10000) / 0x400, 0xdc00 + (n - 0x10000) % 0x400]

def escapeChar (c : Char) : List Char :=
  if c = '"' ∨ c = '\\' then ['\\', c]
  else if c = '\n' then ['\\', 'n']
  else if c = '\r' then ['\\', 'r']
  else if c = '\t' then ['\\', 't']
  else if c = '\x08' then ['\\', 'b']
  else if c = '\x0c' then ['\\', 'f']
  else if ' ' ≤ c ∧ c ≤ '~' then [c]
  else (units c).flatMap fun u => '\\' :: 'u' :: hexDigits 4 u

def writeString (cs : List Char) (rest : List Char) : List Char :=
  '"' :: cs.flatMap escapeChar ++ '"' :: rest

mutual

/-- The characters of a document in front of a rest. -/
def write : Json → List Char → List Char
  | .bool true, rest => 't' :: 'r' :: 'u' :: 'e' :: rest
  | .bool false, rest => 'f' :: 'a' :: 'l' :: 's' :: 'e' :: rest
  | .nat n, rest => Nat.toDigits 10 n ++ rest
  | .string s, rest => writeString s.toList rest
  | .array items, rest => '[' :: writeItems items (']' :: rest)
  | .object fields, rest => '\x7b' :: writeFields fields ('\x7d' :: rest)

def writeItems : List Json → List Char → List Char
  | [], rest => rest
  | [item], rest => item.write rest
  | item :: items, rest => item.write (',' :: writeItems items rest)

def writeFields : List (String × Json) → List Char → List Char
  | [], rest => rest
  | [field], rest => writeField field rest
  | field :: fields, rest => writeField field (',' :: writeFields fields rest)

def writeField : String × Json → List Char → List Char
  | (name, value), rest => writeString name.toList (':' :: value.write rest)

end

def text (j : Json) : String := String.ofList (j.write [])

example : writeString ['a', '"', 'é'] [] =
    ['"', 'a', '\\', '"', '\\', 'u', '0', '0', 'e', '9', '"'] := by decide

example : write (.array [.nat 1, .bool true]) [] = ['[', '1', ',', 't', 'r', 'u', 'e', ']'] := by
  decide

end Json

end TensorGraph
