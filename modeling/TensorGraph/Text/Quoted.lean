import TensorGraph.Text.Hex
import TensorGraph.Text.Printable

/-!
# Quoted text

A text inside a message is written between quotes. Single quotes are used unless the text holds
one and no double quote. The quote in use and the backslash are escaped, and characters that do
not print are written by their code.
-/

namespace TensorGraph.Text

/-- Two digits are enough below `0x100`, four below `0x10000`. -/
def escapeCode (c : Char) : List Char :=
  let n := c.toNat
  if n < 0x100 then '\\' :: 'x' :: hexDigits 2 n
  else if n < 0x10000 then '\\' :: 'u' :: hexDigits 4 n
  else '\\' :: 'U' :: hexDigits 8 n

def quoteChar (mark c : Char) : List Char :=
  if c = mark ∨ c = '\\' then ['\\', c]
  else if c = '\n' then ['\\', 'n']
  else if c = '\r' then ['\\', 'r']
  else if c = '\t' then ['\\', 't']
  else if isPrintable c then [c]
  else escapeCode c

/-- The quote in which a text is written. -/
def quoteMark (cs : List Char) : Char :=
  if '\'' ∈ cs ∧ '"' ∉ cs then '"' else '\''

def quoteChars (cs : List Char) : List Char :=
  let mark := quoteMark cs
  mark :: cs.flatMap (quoteChar mark) ++ [mark]

def quote (s : String) : String := String.ofList (quoteChars s.toList)

example : quoteChars ['a', '\'', 'b'] = ['"', 'a', '\'', 'b', '"'] := by decide
example : quoteChars ['\'', '"'] = ['\'', '\\', '\'', '"', '\''] := by decide
example : quoteChars ['\x00', '~'] = ['\'', '\\', 'x', '0', '0', '~', '\''] := by decide

end TensorGraph.Text
