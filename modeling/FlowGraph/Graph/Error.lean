import FlowGraph.Connection.Basic

/-!
# Why an operation on a graph is refused

Each kind of refusal is a type of causes with the nodes and pins at fault; the
wording is kept apart in one function per type.
-/

namespace FlowGraph

/-- Why a link may not be added. -/
inductive Refusal where
  | noNode (node : NodeId)
  | noOutput (node : NodeId) (pin : Nat)
  | noInput (node : NodeId) (pin : Nat)
  /-- One pin carries execution flow and the other a value. -/
  | classMismatch (source target : PinClass)
  | selfLoop
  /-- A connection already enters the input pin. -/
  | occupied (node : NodeId) (pin : Nat)
  /-- The source can already be reached from the target. -/
  | closesCycle (source target : NodeId)
  deriving DecidableEq, Repr

def Refusal.message : Refusal → String
  | .noNode node => "Node not found: " ++ node.label
  | .noOutput node pin =>
    "Node " ++ node.label ++ " has no output pin " ++ toString pin
  | .noInput node pin =>
    "Node " ++ node.label ++ " has no input pin " ++ toString pin
  | .classMismatch source target =>
    "Incompatible pin classes: " ++ source.name ++ " -> " ++ target.name
  | .selfLoop => "Self-loop not allowed"
  | .occupied node pin =>
    "Input pin " ++ toString pin ++ " of node " ++ node.label ++ " is already connected"
  | .closesCycle source target =>
    "Connection " ++ source.label ++ " -> " ++ target.label ++ " would create a cycle"

/-- Why an execution fails. -/
inductive ExecutionError where
  | noNode (node : NodeId)
  /-- The execution ran longer than any execution without a cycle can. -/
  | endless (start : NodeId)
  deriving DecidableEq, Repr

def ExecutionError.message : ExecutionError → String
  | .noNode node => "Node not found: " ++ node.label
  | .endless start => "Execution from " ++ start.label ++ " does not end"

/-- How a stored connection breaks the rules for connections. -/
inductive Violation where
  | noNode (connection : ConnectionId) (node : NodeId)
  | noOutput (connection : ConnectionId) (node : NodeId) (pin : Nat)
  | noInput (connection : ConnectionId) (node : NodeId) (pin : Nat)
  | classMismatch (connection : ConnectionId)
  /-- An earlier connection enters the same input pin. -/
  | occupied (connection : ConnectionId) (node : NodeId) (pin : Nat)
  /-- The connection closes a cycle with earlier ones. -/
  | closesCycle (connection : ConnectionId)
  deriving DecidableEq, Repr

namespace Violation

/-- The offending connection. -/
def connection : Violation → ConnectionId
  | .noNode c _ => c
  | .noOutput c _ _ => c
  | .noInput c _ _ => c
  | .classMismatch c => c
  | .occupied c _ _ => c
  | .closesCycle c => c

def message : Violation → String
  | .noNode c node =>
    "Connection " ++ c.label ++ " references missing node " ++ node.label
  | .noOutput c node pin =>
    "Connection " ++ c.label ++ " leaves missing output pin " ++ toString pin
      ++ " of node " ++ node.label
  | .noInput c node pin =>
    "Connection " ++ c.label ++ " enters missing input pin " ++ toString pin
      ++ " of node " ++ node.label
  | .classMismatch c => "Connection " ++ c.label ++ " joins an exec pin to a data pin"
  | .occupied c node pin =>
    "Connection " ++ c.label ++ " is a second connection into pin " ++ toString pin
      ++ " of node " ++ node.label
  | .closesCycle c => "Connection " ++ c.label ++ " closes a cycle"

end Violation

end FlowGraph
