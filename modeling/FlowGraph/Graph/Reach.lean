import FlowGraph.Connection.Basic

/-!
# Paths along connections

Connections are looked at as edges between node ids, whatever they carry and
whether or not the nodes exist.  `Adjacency.pathExists` decides by a depth-first
search whether a path of edges leads from one node to another.
-/

namespace FlowGraph

/-- The edge from the source node to the target node of a link. -/
def Link.edge (l : Link) : NodeId × NodeId := (l.source, l.target)

/-- The edges of all given connections. -/
def Connection.edges (connections : List Connection) : List (NodeId × NodeId) :=
  connections.map fun c => c.toLink.edge

/-- The targets of the edges that start at a node. -/
def Reach.successors (edges : List (NodeId × NodeId)) (node : NodeId) : List NodeId :=
  (edges.filter fun e => e.1 == node).map Prod.snd

/-- Edges to be looked up by the nodes at which they start. -/
structure Adjacency where
  /-- The edges, newest first. -/
  edges : List (NodeId × NodeId)

namespace Adjacency

/-- Without edges. -/
def empty : Adjacency := ⟨[]⟩

instance : EmptyCollection Adjacency := ⟨empty⟩

/-- Add the edge of a connection. -/
def insert (adjacency : Adjacency) (c : Connection) : Adjacency :=
  ⟨c.toLink.edge :: adjacency.edges⟩

/-- The edges of the given connections, added one after the other. -/
def ofConnections (connections : List Connection) : Adjacency := connections.foldl insert ∅

/-- The targets of the edges that start at a node, in the order in which they were
added. -/
def successors (adjacency : Adjacency) (node : NodeId) : List NodeId :=
  (Reach.successors adjacency.edges node).reverse

end Adjacency

/-- A depth-first search under way. -/
structure Search where
  visited : List NodeId
  /-- The nodes still to be looked at, with the top first.  A node may stand here
  several times. -/
  stack : List NodeId

namespace Search

/-- The search before its first turn. -/
def start (node : NodeId) : Search := ⟨[], [node]⟩

/-- What the search answers, if it is at its end: the goal is on top of the stack,
or nothing is left on it. -/
def answer? (goal : NodeId) (s : Search) : Option Bool :=
  match s.stack with
  | [] => some false
  | current :: _ => if current = goal then some true else none

/-- Take a node from the stack.  If it is met there for the first time, those of
its successors that have not been visited come in its place, the last one on top. -/
def step (adjacency : Adjacency) (s : Search) : Search :=
  match s.stack with
  | [] => s
  | current :: stack =>
    if current ∈ s.visited then { s with stack := stack }
    else
      let visited := current :: s.visited
      let fresh := (adjacency.successors current).filter fun next => next ∉ visited
      { visited := visited, stack := fresh.reverse ++ stack }

/-- Search to the end, if the given number of turns is enough for it. -/
def finish? (adjacency : Adjacency) (goal : NodeId) : Nat → Search → Option Bool
  | 0, _ => none
  | turns + 1, s =>
    match s.answer? goal with
    | some answer => some answer
    | none => finish? adjacency goal turns (s.step adjacency)

end Search

/-- Whether a path of edges leads from `start` to `goal`; the empty path counts.
Besides `start`, every node on the stack was put there by an edge of its own, and
the last turn finds the stack empty. -/
def Adjacency.pathExists (adjacency : Adjacency) (start goal : NodeId) : Bool :=
  ((Search.start start).finish? adjacency goal (adjacency.edges.length + 2)).getD false

end FlowGraph
