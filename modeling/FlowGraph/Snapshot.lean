import FlowGraph.Graph.Basic

/-!
# Snapshots

A snapshot is the visible state of a graph at one moment: structure and values,
but no behaviors.
-/

namespace FlowGraph

/-- The visible state of a node. -/
structure NodeSnapshot where
  id : NodeId
  title : String
  category : String
  inputs : List Pin
  outputs : List Pin
  flow : Flow
  active : Bool
  inputValues : Store Nat
  outputValues : Store Nat
  deriving DecidableEq

/-- The visible state of a graph. -/
structure Snapshot where
  name : String
  nodes : List NodeSnapshot
  connections : List Connection
  deriving DecidableEq

/-- Equality of lists, entry by entry, with a given equality of entries. -/
def equalLists {α : Type} (equals : α → α → Bool) : List α → List α → Bool
  | [], [] => true
  | a :: as, b :: bs => equals a b && equalLists equals as bs
  | _, _ => false

namespace NodeSnapshot

def ofNode (n : Node) : NodeSnapshot where
  id := n.id
  title := n.title
  category := n.category
  inputs := n.inputs
  outputs := n.outputs
  flow := n.flow
  active := n.active
  inputValues := n.memory.inputs
  outputValues := n.memory.outputs

/-- Equality, with numbers compared as numbers. -/
def equals (a b : NodeSnapshot) : Bool :=
  a.id == b.id && a.title == b.title && a.category == b.category
    && equalLists Pin.equals a.inputs b.inputs && equalLists Pin.equals a.outputs b.outputs
    && a.flow == b.flow && a.active == b.active
    && a.inputValues.equals b.inputValues && a.outputValues.equals b.outputValues

end NodeSnapshot

namespace Snapshot

def node? (s : Snapshot) (id : NodeId) : Option NodeSnapshot :=
  s.nodes.find? fun n => n.id == id

/-- Equality, with numbers compared as numbers. -/
def equals (a b : Snapshot) : Bool :=
  a.name == b.name && equalLists NodeSnapshot.equals a.nodes b.nodes
    && a.connections == b.connections

end Snapshot

/-- The present state of a graph. -/
def Graph.snapshot (g : Graph) : Snapshot where
  name := g.name
  nodes := g.nodes.rows.map NodeSnapshot.ofNode
  connections := g.connections.rows

end FlowGraph
