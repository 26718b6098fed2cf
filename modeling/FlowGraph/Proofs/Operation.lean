import FlowGraph.Catalog.Basic
import FlowGraph.Graph.Command
import FlowGraph.Graph.Integrity

/-!
# Operations and the graphs that arise from them

An operation is one call that a host can make on a graph, with all its arguments.  The
declarations bring their behaviors along, so that nothing is assumed of those.  A graph
arises from an empty one by any finite number of operations in any order; what is let
through at each step is left open here.
-/

namespace FlowGraph

/-- One call on a graph. -/
inductive Operation where
  | addNode (spec : NodeSpec)
  | spawn (catalog : Catalog) (key : String)
  | connect (id : ConnectionId) (l : Link)
  | restore (c : Connection)
  | disconnect (id : ConnectionId)
  | disconnectNode (node : NodeId)
  | disconnectPin (node : NodeId) (pin : Nat) (side : PinDirection)
  | removeNode (node : NodeId)
  | validate
  | cleanup
  | knowOrder
  | refreshPure
  | refreshAll
  | refreshConnection (id : ConnectionId)
  | refreshInputs (node : NodeId)
  | perform (command : Command)
  | execute (start : NodeId)
  | fire (title : String)
  | fireStart
  | fireTick
  | rename (name : String)
  | setSettings (settings : Settings)
  | setTitle (node : NodeId) (title : String)
  | setCategory (node : NodeId) (category : String)
  | setInput (node : NodeId) (pin : Nat) (value : Value)
  | setOutput (node : NodeId) (pin : Nat) (value : Value)
  | invoke (node : NodeId)

namespace Operation

/-- The graph after a call. -/
def apply (g : Graph) : Operation → Graph
  | addNode spec => (g.addNode spec).graph
  | spawn catalog key => (catalog.spawn g key).graph
  | connect id l => (g.connect id l).graph
  | restore c => g.restore c
  | disconnect id => (g.disconnect id).1
  | disconnectNode node => (g.disconnectNode node).graph
  | disconnectPin node pin side => (g.disconnectPin node pin side).graph
  | removeNode node => (g.removeNode node).graph
  | validate => g.validate.graph
  | cleanup => g.cleanup.graph
  | knowOrder => g.knowOrder.graph
  | refreshPure => g.refreshPure.graph
  | refreshAll => g.refreshAll.graph
  | refreshConnection id => (g.refreshConnection id).graph
  | refreshInputs node => (g.refreshInputs node).graph
  | perform command => (g.perform command).graph
  | execute start => (g.execute start).graph
  | fire title => (g.fire title).graph
  | fireStart => g.fireStart.graph
  | fireTick => g.fireTick.graph
  | rename name => g.rename name
  | setSettings settings => g.setSettings settings
  | setTitle node title => g.setTitle node title
  | setCategory node category => g.setCategory node category
  | setInput node pin value => g.setInput node pin value
  | setOutput node pin value => g.setOutput node pin value
  | invoke node => (g.invoke node).graph

/-- A call that stores no connection unchecked. -/
def Guarded : Operation → Prop
  | restore _ => False
  | _ => True

/-- A call that stores no connection unchecked and none under an id that is in use. -/
def Checked (g : Graph) : Operation → Prop
  | connect id _ => g.connection? id = none
  | restore _ => False
  | _ => True

theorem Checked.guarded {g : Graph} {operation : Operation} (h : operation.Checked g) :
    operation.Guarded := by
  cases operation with
  | restore c => exact h
  | _ => trivial

end Operation

/-- The graphs that arise from an empty one by calls that are let through. -/
inductive Reachable (permitted : Graph → Operation → Prop) : Graph → Prop
  | empty (name : String) (settings : Settings) :
      Reachable permitted { name := name, settings := settings }
  | step {g : Graph} (operation : Operation) (hreachable : Reachable permitted g)
      (hpermitted : permitted g operation) : Reachable permitted (operation.apply g)

theorem Reachable.mono {permitted permitted' : Graph → Operation → Prop} {g : Graph}
    (h : Reachable permitted g)
    (himp : ∀ g operation, permitted g operation → permitted' g operation) :
    Reachable permitted' g := by
  induction h with
  | empty name settings => exact .empty name settings
  | step operation _ hpermitted ih => exact .step operation ih (himp _ _ hpermitted)

theorem Reachable.foldl_apply {permitted : Graph → Operation → Prop} {g : Graph}
    {operations : List Operation} (h : Reachable permitted g)
    (hpermitted : ∀ g, ∀ operation ∈ operations, permitted g operation) :
    Reachable permitted (operations.foldl Operation.apply g) := by
  induction operations generalizing g with
  | nil => exact h
  | cons operation operations ih =>
    have hfirst := hpermitted g operation List.mem_cons_self
    apply ih (.step operation h hfirst)
    intro g' other hother
    exact hpermitted g' other (List.mem_cons_of_mem operation hother)

/-- A graph to look at: a loop that is started by an event and makes a choice in each of
its three passes. -/
def Graph.counting : Graph :=
  [.addNode { title := "On Start", outputs := [.exec] },
    .addNode (.countingLoop "Count"),
    .addNode (.branch "Choose"),
    .connect ⟨0⟩ ⟨⟨0⟩, 0, ⟨1⟩, 0⟩,
    .connect ⟨1⟩ ⟨⟨1⟩, 0, ⟨2⟩, 0⟩,
    .setInput ⟨1⟩ 2 (.int 3)].foldl Operation.apply {}

/-- The same graph after connections have been restored unchecked: a loop from a node to
itself, a second connection into an input, one to a missing node, and a sound one. -/
def Graph.tangled : Graph :=
  [.restore ⟨⟨⟨1⟩, 2, ⟨1⟩, 1⟩, ⟨2⟩⟩,
    .restore ⟨⟨⟨1⟩, 1, ⟨2⟩, 0⟩, ⟨3⟩⟩,
    .restore ⟨⟨⟨1⟩, 1, ⟨9⟩, 0⟩, ⟨4⟩⟩,
    .restore ⟨⟨⟨1⟩, 2, ⟨2⟩, 1⟩, ⟨5⟩⟩].foldl Operation.apply Graph.counting

/-- A graph to look at: a number goes through a node that passes it on to the limit of a
loop, and the index of the loop goes to a display.  The number has just been changed. -/
def Graph.feeding : Graph :=
  [.addNode { title := "Number", outputs := [.data "Value" (.int 5)] },
    .addNode
      { title := "Pass on"
        inputs := [.data "In" (.int 0)]
        outputs := [.data "Out" (.int 0)]
        behavior := some fun _ _ m =>
          ({ m with outputs := m.outputs.set 0 ((m.inputs.get? 0).getD (.int 0)) }, []) },
    .addNode (.countingLoop "Count"),
    .addNode { title := "Display", inputs := [.data "Shown" (.int 0)] },
    .connect ⟨0⟩ ⟨⟨0⟩, 0, ⟨1⟩, 0⟩,
    .connect ⟨1⟩ ⟨⟨1⟩, 0, ⟨2⟩, 2⟩,
    .connect ⟨2⟩ ⟨⟨2⟩, 2, ⟨3⟩, 0⟩,
    .setOutput ⟨0⟩ 0 (.int 7),
    .setOutput ⟨2⟩ 2 (.int 3)].foldl Operation.apply {}

/-- The same graph with an event that starts the loop. -/
def Graph.starting : Graph :=
  [.addNode { title := "On Start", outputs := [.exec] },
    .connect ⟨3⟩ ⟨⟨4⟩, 0, ⟨2⟩, 0⟩].foldl Operation.apply Graph.feeding

end FlowGraph
