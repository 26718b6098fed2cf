import FlowGraph.Graph.Basic
import FlowGraph.Journal

/-!
# Runs

A run is a graph together with the journal of what has been done to it, newest
event first.  Operations are built from two steps: invoking a node and copying a
value along a connection.
-/

namespace FlowGraph

/-- A graph under operation. -/
structure Run where
  graph : Graph
  /-- What has happened, newest first. -/
  journal : List Event := []

/-- A run that ends with an answer to the caller. -/
structure Outcome (α : Type) extends Run where
  result : α

namespace Run

/-- The events in the order in which they happened. -/
def events (r : Run) : List Event := r.journal.reverse

/-- How much has been done so far. -/
def stats (r : Run) : Stats := .ofEvents r.journal

def record (r : Run) (e : Event) : Run := { r with journal := e :: r.journal }

/-- End a run with an answer. -/
def answer {α : Type} (r : Run) (result : α) : Outcome α := { toRun := r, result := result }

/-- Let the behavior of a node work on its memory. -/
def invoke (r : Run) (id : NodeId) : Run :=
  match r.graph.node? id with
  | none => r
  | some n =>
    let (memory, remarks) := n.react
    { graph := r.graph.setMemory id memory
      journal := (remarks.map (Event.ofRemark id)).reverse ++ .invoked id :: r.journal }

/-- Copy the value at the source of a connection into the slot at its target.
Nothing happens if there is no value yet or no such slot. -/
def copy (r : Run) (c : Connection) : Run :=
  match (r.graph.node? c.source).bind (·.memory.outputs.get? c.sourcePin) with
  | none => r
  | some value =>
    if ((r.graph.node? c.target).bind (·.input? c.targetPin)).isSome then
      { graph := r.graph.setInput c.target c.targetPin value
        journal := .copied c.id :: r.journal }
    else r

end Run

/-- Let the host invoke a node.  The answer says whether there is such a node. -/
def Graph.invoke (g : Graph) (id : NodeId) : Outcome Bool :=
  (Run.invoke { graph := g } id).answer (g.hasNode id)

end FlowGraph
