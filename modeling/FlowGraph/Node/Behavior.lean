import FlowGraph.Store.Basic

/-!
# Behaviors

A behavior is what the host binds to a node.  It sees the id, the title and the
memory of its own node and nothing else of the graph, and it answers with the
new memory and with remarks for the host.
-/

namespace FlowGraph

/-- The identity of a node within its graph. -/
structure NodeId where
  number : Nat
  deriving DecidableEq, Repr, Inhabited

/-- The text of an id in messages. -/
def NodeId.label (id : NodeId) : String := "#" ++ toString id.number

/-- The values that a node keeps: those at its inputs, those at its outputs, and
those that its behavior keeps for itself by name. -/
structure Memory where
  inputs : Store Nat := ∅
  outputs : Store Nat := ∅
  locals : Store String := ∅
  deriving DecidableEq, Inhabited

/-- Something that a behavior tells the host. -/
inductive Remark where
  /-- A text for the log. -/
  | print (text : String)
  /-- A line for the host alone. -/
  | note (line : String)
  deriving DecidableEq, Repr

/-- A callback bound to a node. -/
abbrev Behavior := NodeId → String → Memory → Memory × List Remark

end FlowGraph
