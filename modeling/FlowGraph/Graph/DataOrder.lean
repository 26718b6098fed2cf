import FlowGraph.Graph.Reach
import FlowGraph.Graph.Run

/-!
# The data order

The data order puts the source of every data connection before its target.  It
is found by taking, again and again, the first node into which no data edge
leads from a node that has not been taken.  Nodes on a cycle of data edges, and
those behind one, are never taken.
-/

namespace FlowGraph

namespace DataOrder

/-- The state of the sorting. -/
structure Sorting where
  /-- For every live node the number of data edges from nodes not yet taken. -/
  waiting : List (NodeId × Nat)
  /-- The nodes that may be taken, in the order in which they became free. -/
  queue : List NodeId
  /-- The nodes taken, newest first. -/
  taken : List NodeId

namespace Sorting

/-- One data edge less leads into a node, which becomes free if it was the last. -/
def release (s : Sorting) (target : NodeId) : Sorting :=
  let waiting := s.waiting.map fun (id, n) => if id = target then (id, n - 1) else (id, n)
  if waiting.lookup target = some 0 then
    { s with waiting := waiting, queue := s.queue ++ [target] }
  else { s with waiting := waiting }

/-- Take free nodes, at most the given number of them. -/
def takeFree (edges : List (NodeId × NodeId)) : Nat → Sorting → Sorting
  | 0, s => s
  | steps + 1, s =>
    match s.queue with
    | [] => s
    | current :: rest =>
      let next := { s with queue := rest, taken := current :: s.taken }
      takeFree edges steps ((Reach.successors edges current).foldl release next)

/-- The state before any node is taken. -/
def start (nodes : List NodeId) (edges : List (NodeId × NodeId)) : Sorting where
  waiting := nodes.map fun id => (id, edges.countP fun e => e.2 == id)
  queue := nodes.filter fun id => !edges.any fun e => e.2 == id
  taken := []

end Sorting

/-- The nodes sorted along the edges, as far as no cycle stands in the way.  Every
node becomes free at most once, so as many steps as there are nodes suffice. -/
def sort (nodes : List NodeId) (edges : List (NodeId × NodeId)) : List NodeId :=
  (Sorting.takeFree edges nodes.length (Sorting.start nodes edges)).taken.reverse

end DataOrder

namespace Graph

/-- The edges of the data connections that end at a live node. -/
def dataEdges (g : Graph) : List (NodeId × NodeId) :=
  Connection.edges <|
    g.connections.rows.filter fun c => g.hasNode c.target && g.carriesData c.toLink

/-- The data order of the present structure. -/
def dataOrder (g : Graph) : List NodeId := DataOrder.sort g.nodeIds g.dataEdges

/-- The data order, calculated unless it is known already. -/
def knowOrder (g : Graph) : Outcome (List NodeId) :=
  match g.knownOrder with
  | some order => { graph := g, result := order }
  | none =>
    let order := g.dataOrder
    { graph := { g with knownOrder := some order }
      journal := [.dataOrdered order.length]
      result := order }

end Graph

end FlowGraph
