import FlowGraph.Connection.Id
import FlowGraph.Node.Basic

/-!
# Connections

A link leads from an output pin of one node to an input pin of another.  A
connection is a link with an identity of its own: two connections may have the
same ends.
-/

namespace FlowGraph

/-- The two ends of a connection. -/
structure Link where
  source : NodeId
  sourcePin : Nat
  target : NodeId
  targetPin : Nat
  deriving DecidableEq, Repr, Inhabited

/-- A link as shown in messages. -/
def Link.label (l : Link) : String :=
  l.source.label ++ ":" ++ toString l.sourcePin ++ " -> "
    ++ l.target.label ++ ":" ++ toString l.targetPin

/-- A stored link with its identity. -/
structure Connection extends Link where
  id : ConnectionId
  deriving DecidableEq, Repr, Inhabited

namespace Link

/-- Whether a node is one of the ends. -/
def involves (l : Link) (node : NodeId) : Bool :=
  l.source == node || l.target == node

/-- Whether the link starts at an output pin. -/
def leaves (l : Link) (node : NodeId) (pin : Nat) : Bool :=
  l.source == node && l.sourcePin == pin

/-- Whether the link ends at an input pin. -/
def enters (l : Link) (node : NodeId) (pin : Nat) : Bool :=
  l.target == node && l.targetPin == pin

/-- Whether the link touches a pin on one side of a node. -/
def touches (l : Link) (node : NodeId) (pin : Nat) : PinDirection → Bool
  | .input => l.enters node pin
  | .output => l.leaves node pin

end Link

end FlowGraph
