import FlowGraph.Graph.Execution

/-!
# Commands

One entry point over the ways in which values and execution move through a
graph.
-/

namespace FlowGraph

/-- A way to move values or execution. -/
inductive Command where
  /-- Refresh what starts at pure nodes. -/
  | refreshPure
  /-- Refresh all data connections. -/
  | refreshAll
  /-- Refresh one connection. -/
  | refreshConnection (id : ConnectionId)
  /-- Refresh the inputs of a node from what it depends on. -/
  | refreshInputs (node : NodeId)
  /-- Execute a node and what follows it. -/
  | execute (node : NodeId)
  deriving DecidableEq, Repr

/-- Carry out one command.  If that is refused the graph is left as it is. -/
def Graph.perform (g : Graph) : Command → Outcome (Except ExecutionError Unit)
  | .refreshPure => g.refreshPure.answer (.ok ())
  | .refreshAll => g.refreshAll.answer (.ok ())
  | .refreshConnection id => (g.refreshConnection id).answer (.ok ())
  | .refreshInputs node =>
    if g.hasNode node then (g.refreshInputs node).answer (.ok ())
    else { graph := g, result := .error (.noNode node) }
  | .execute node => g.execute node

end FlowGraph
