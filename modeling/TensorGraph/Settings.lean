import TensorGraph.Number.Numeral
import TensorGraph.Shape.Reading
import TensorGraph.Value.Arithmetic

/-!
# Settings

A setting is a text that is read at the type of its default. Two settings govern the library: the
debug level, which turns on logging, and whether the shape of a known instruction is checked.
-/

namespace TensorGraph

namespace Setting

def readInt (text : String) : Except Error Int :=
  match Number.Numeral.readInteger text with
  | .ok n => .ok n
  | .error .malformed => .error (.malformedInteger text)
  | .error (.tooLong count) => .error (.tooManyDigits count)

/-- An integer of a width, which has to hold it. -/
def readSized (width : Width) (text : String) : Except Error Int := do
  width.check (← readInt text)

/-- The shortest text of the number that is read. -/
def readFloat (text : String) : Except Error String :=
  match Number.Numeral.readFloating? text with
  | some x => .ok x.text
  | none => .error (.malformedFloat text)

/-- The value of a setting: its default when it is not given, else its text read at the type of
the default. -/
def read (default : Value) : Option String → Except Error Value
  | none => .ok default
  | some text =>
    match default with
    | .none => .error .noneTakesNoArguments
    | .bool _ => .ok (.bool !text.isEmpty)
    | .int _ => (readInt text).map .int
    | .sized width _ => (readSized width text).map (.sized width)
    | .float _ | .undefined _ => (readFloat text).map .float
    | .sizedFloat _ => (readFloat text).map .sizedFloat
    | .text _ => .ok (.text text)
    | .list _ => .ok (.list (Value.characters text))
    | .tuple _ => .ok (.tuple (Value.characters text))
    | .shape _ => (Shape.ofDims [.text text]).map .shape

/-- The value of an integer setting. -/
def readIntOr (default : Int) : Option String → Except Error Int
  | none => .ok default
  | some text => readInt text

end Setting

structure Settings where
  debug : Int
  strictShapes : Int
deriving DecidableEq, Repr, Inhabited

namespace Settings

/-- The debug level is off and shapes are checked, unless the texts say otherwise. -/
def ofTexts (debug strictShapes : Option String) : Except Error Settings := do
  let debug ← Setting.readIntOr 0 debug
  let strictShapes ← Setting.readIntOr 1 strictShapes
  return ⟨debug, strictShapes⟩

/-- Logging goes nowhere, and to a stream as well when debugging. -/
def handlers (s : Settings) : List String :=
  if s.debug = 0 then ["NullHandler"] else ["NullHandler", "StreamHandler"]

def level (s : Settings) : String := if s.debug = 0 then "NOTSET" else "DEBUG"

end Settings

end TensorGraph
