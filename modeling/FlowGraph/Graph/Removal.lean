import FlowGraph.Graph.Run

/-!
# Removing connections and nodes

A data input that loses its last connection goes back to its default.  When a
node is removed, all connections that touch it are removed first.
-/

namespace FlowGraph

/-- After the removal of a connection, put the input that it entered back to its
default unless another connection enters it. -/
def Graph.vacate (g : Graph) (l : Link) : Graph :=
  if g.isConnected l.target l.targetPin .input then g
  else g.resetInput l.target l.targetPin

/-- Vacate the input of a connection that has been taken out, and say so. -/
def Run.vacate (r : Run) (c : Connection) : Run :=
  { graph := r.graph.vacate c.toLink, journal := .disconnected c.toLink :: r.journal }

namespace Graph

/-- Remove one connection.  The answer is the connection that was removed. -/
def disconnect (g : Graph) (id : ConnectionId) : Graph × Option Connection :=
  match g.connection? id with
  | none => (g, none)
  | some c =>
    let without := { g with connections := g.connections.erase id, knownOrder := none }
    (without.vacate c.toLink, some c)

/-- Remove all connections that satisfy a condition: first take all of them out,
then vacate their inputs one after the other.  The answer is their number. -/
def disconnectWhere (g : Graph) (p : Connection → Bool) : Outcome Nat :=
  let removed := g.connections.rows.filter p
  if removed.isEmpty then { graph := g, result := 0 }
  else
    let without : Graph :=
      { g with connections := g.connections.filter fun c => !p c, knownOrder := none }
    let run : Run := removed.foldl Run.vacate { graph := without }
    run.answer removed.length

/-- Remove the connections that have a node as one of their ends. -/
def disconnectNode (g : Graph) (node : NodeId) : Outcome Nat :=
  g.disconnectWhere fun c => c.involves node

/-- Remove the connections on one pin. -/
def disconnectPin (g : Graph) (node : NodeId) (pin : Nat) (side : PinDirection) :
    Outcome Nat :=
  g.disconnectWhere fun c => c.touches node pin side

/-- Remove a node and the connections that touch it.  The answer is the node as it
was when its last connection had gone. -/
def removeNode (g : Graph) (id : NodeId) : Outcome (Option Node) :=
  if g.hasNode id then
    let removal := g.disconnectNode id
    let node := removal.graph.node? id
    let without :=
      { removal.graph with nodes := removal.graph.nodes.erase id, knownOrder := none }
    (Run.record { removal.toRun with graph := without } (.nodeRemoved id removal.result)).answer
      node
  else { graph := g, result := none }

end Graph

end FlowGraph
