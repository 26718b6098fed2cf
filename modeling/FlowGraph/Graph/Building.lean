import FlowGraph.Graph.Admission
import FlowGraph.Graph.Refresh

/-!
# Building a graph

Nodes are created from declarations and linked to each other.  A new connection
is refreshed at once, so that its target shows the value of its source without
waiting for the next pass over the graph.  Ids of connections come from the caller.
-/

namespace FlowGraph

namespace Graph

/-- Create a node.  Its id is used up even if the declaration turns out not to be
valid. -/
def addNode (g : Graph) (spec : NodeSpec) : Outcome (Except SpecError NodeId) :=
  let id : NodeId := ⟨g.nextId⟩
  let advanced := { g with nextId := g.nextId + 1 }
  match Node.ofSpec id spec with
  | .error error => { graph := advanced, result := .error error }
  | .ok node =>
    { graph := { advanced with nodes := g.nodes.put node, knownOrder := none }
      journal := [.nodeAdded id node.title node.inputs.length node.outputs.length]
      result := .ok id }

/-- Store a connection without checking it, in the place of a stored connection
with the same id if there is one. -/
def restore (g : Graph) (c : Connection) : Graph :=
  { g with connections := g.connections.put c, knownOrder := none }

/-- Add a link under a new connection id, if the rules admit it. -/
def connect (g : Graph) (id : ConnectionId) (l : Link) :
    Outcome (Except Refusal ConnectionId) :=
  match g.check l with
  | .error error =>
    { graph := g, journal := [.refused l error], result := .error error }
  | .ok () =>
    let stored : Run :=
      { graph := g.restore { toLink := l, id := id }, journal := [.connected l] }
    (stored.refreshConnection id).answer (.ok id)

def rename (g : Graph) (name : String) : Graph := { g with name := name }

def setSettings (g : Graph) (settings : Settings) : Graph := { g with settings := settings }

end Graph

end FlowGraph
