import FlowGraph.Connection.Basic
import FlowGraph.Settings
import FlowGraph.Table.Basic

/-!
# Graphs

A graph owns its nodes and its connections.  Connections refer to nodes by id
only.  Nodes stand in the order of their creation and connections in the order
of their insertion, and every answer about several of them keeps that order.
-/

namespace FlowGraph

/-- A graph of nodes. -/
structure Graph where
  name : String := "Untitled"
  settings : Settings := {}
  /-- The number of the next node id; ids are never used twice. -/
  nextId : Nat := 0
  nodes : Table Node.id := ∅
  connections : Table Connection.id := ∅
  /-- The data order, if it has been calculated since the last change of structure. -/
  knownOrder : Option (List NodeId) := none

namespace Graph

instance : Inhabited Graph := ⟨{}⟩

/-! ## Looking things up -/

def node? (g : Graph) (id : NodeId) : Option Node := g.nodes.find? id

def hasNode (g : Graph) (id : NodeId) : Bool := (g.node? id).isSome

def nodeIds (g : Graph) : List NodeId := g.nodes.keys

/-- The first node with a title. -/
def findTitle? (g : Graph) (title : String) : Option NodeId :=
  (g.nodes.rows.find? fun n => n.title == title).map Node.id

/-- Whether a live node is pure. -/
def isPure (g : Graph) (id : NodeId) : Bool := (g.node? id).any Node.isPure

def connection? (g : Graph) (id : ConnectionId) : Option Connection := g.connections.find? id

/-- The connections that leave an output pin. -/
def outgoing (g : Graph) (node : NodeId) (pin : Nat) : List Connection :=
  g.connections.rows.filter fun c => c.leaves node pin

/-- The connections that enter an input pin. -/
def incoming (g : Graph) (node : NodeId) (pin : Nat) : List Connection :=
  g.connections.rows.filter fun c => c.enters node pin

/-- The connections that have a node as one of their ends. -/
def touching (g : Graph) (node : NodeId) : List Connection :=
  g.connections.rows.filter fun c => c.involves node

/-- Whether a connection touches a pin on one side of a node. -/
def isConnected (g : Graph) (node : NodeId) (pin : Nat) (side : PinDirection) : Bool :=
  g.connections.rows.any fun c => c.touches node pin side

/-- The output pin from which a link starts, if there is one. -/
def sourcePin? (g : Graph) (l : Link) : Option Pin :=
  (g.node? l.source).bind (·.output? l.sourcePin)

/-- Whether a link starts at a data output. -/
def carriesData (g : Graph) (l : Link) : Bool := (g.sourcePin? l).any Pin.isData

/-- Whether a link starts at an exec output. -/
def carriesExec (g : Graph) (l : Link) : Bool := (g.sourcePin? l).any Pin.isExec

/-- The data connections that end at a node. -/
def dataInputs (g : Graph) (node : NodeId) : List Connection :=
  g.connections.rows.filter fun c => c.target == node && g.carriesData c.toLink

/-- Whether a data connection starts at a node. -/
def feedsData (g : Graph) (node : NodeId) : Bool :=
  g.connections.rows.any fun c => c.source == node && g.carriesData c.toLink

/-! ## Changing one node -/

/-- Change the memory of a node. -/
def setMemory (g : Graph) (id : NodeId) (memory : Memory) : Graph :=
  { g with nodes := g.nodes.modify id (fun n => { n with memory := memory }) fun _ => rfl }

/-- Put a value into an input slot of a node. -/
def setInput (g : Graph) (id : NodeId) (pin : Nat) (value : Value) : Graph :=
  { g with nodes := g.nodes.modify id (·.setInput pin value) fun _ => rfl }

/-- Put a value into an output slot of a node. -/
def setOutput (g : Graph) (id : NodeId) (pin : Nat) (value : Value) : Graph :=
  { g with nodes := g.nodes.modify id (·.setOutput pin value) fun _ => rfl }

def setTitle (g : Graph) (id : NodeId) (title : String) : Graph :=
  { g with nodes := g.nodes.modify id (fun n => { n with title := title }) fun _ => rfl }

def setCategory (g : Graph) (id : NodeId) (category : String) : Graph :=
  { g with nodes := g.nodes.modify id (fun n => { n with category := category }) fun _ => rfl }

/-- Mark a node as being executed or not. -/
def setActive (g : Graph) (id : NodeId) (active : Bool) : Graph :=
  { g with nodes := g.nodes.modify id (fun n => { n with active := active }) fun _ => rfl }

/-- Put a data input of a node back to its default. -/
def resetInput (g : Graph) (id : NodeId) (pin : Nat) : Graph :=
  { g with nodes := g.nodes.modify id (·.resetInput pin) fun n => n.resetInput_id pin }

end Graph

end FlowGraph
