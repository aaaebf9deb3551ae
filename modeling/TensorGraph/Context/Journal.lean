import TensorGraph.Context.Lowering

/-!
# Journals

The history of a context, as a log and as the calls that observers of entering and leaving see.
-/

namespace TensorGraph

namespace Event

/-- The log line of an event. Entering and leaving is logged from the second debug level on, and a
refused entry never. -/
def logLine? (debug : Int) : Event → Option String
  | .enter id => if 2 ≤ debug then some ("lazygrad.context: enter " ++ toString id) else none
  | .exit id => if 2 ≤ debug then some ("lazygrad.context: exit " ++ toString id) else none
  | .refused _ => none
  | .emission e => some ("lazygrad.builder: " ++ e.text)
  | .backward root live params =>
    some ("lazygrad.context: backward from #" ++ toString root ++ ": " ++ toString live ++
      " live nodes, " ++ toString params ++ " parameters")

/-- What an observer of entering and leaving sees; it sees an entry before it is refused. -/
def observed? : Event → Option (String × Int)
  | .enter id | .refused id => some ("enter", id)
  | .exit id => some ("exit", id)
  | .emission _ | .backward .. => none

end Event

def Context.text (c : Context) (p : Program) : String :=
  "EvalContext(evaluated=" ++ toString c.values.size ++ ", requires_grad=" ++
    (Value.bool c.requiresGrad).written ++ ", builder=" ++ p.text ++ ")"

end TensorGraph
