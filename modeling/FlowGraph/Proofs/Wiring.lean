import FlowGraph.Proofs.Dependencies
import FlowGraph.Proofs.Memory

/-!
# Graphs that are wired alike

Two graphs are wired alike if they have the same nodes, with the same pins, flow roles and
behaviors, and the same connections.  They may differ in their names, in their settings, in
what their nodes remember and in the order that they know.  Where execution can go and where
values can flow is decided by the wiring.
-/

namespace FlowGraph

/-- The graphs have the same nodes, but for memory and marks, and the same connections. -/
structure Graph.SameWiring (g g' : Graph) : Prop where
  nodes : g.skeleton.nodes = g'.skeleton.nodes
  connections : g.connections = g'.connections

namespace Graph

variable {g g' g'' : Graph}

namespace SameWiring

theorem refl (g : Graph) : g.SameWiring g := ⟨rfl, rfl⟩

theorem symm (h : g.SameWiring g') : g'.SameWiring g := ⟨h.nodes.symm, h.connections.symm⟩

theorem trans (h : g.SameWiring g') (h' : g'.SameWiring g'') : g.SameWiring g'' :=
  ⟨h.nodes.trans h'.nodes, h.connections.trans h'.connections⟩

theorem of_skeleton (h : g.skeleton = g'.skeleton) : g.SameWiring g' :=
  ⟨congrArg Graph.nodes h, connections_eq_of_skeleton h⟩

/-- With the name and the settings of one, the other has the same skeleton. -/
theorem skeleton_eq (h : g.SameWiring g') :
    g.skeleton =
      { g' with name := g.name, settings := g.settings, nextId := g.nextId }.skeleton := by
  have hnodes := h.nodes
  simp only [skeleton] at hnodes ⊢
  rw [hnodes, h.connections]

variable (h : g.SameWiring g')

include h

theorem hasNode_eq (id : NodeId) : g.hasNode id = g'.hasNode id :=
  hasNode_of_skeleton h.skeleton_eq id

theorem isPure_eq (id : NodeId) : g.isPure id = g'.isPure id := isPure_of_skeleton h.skeleton_eq id

theorem carriesExec_eq (l : Link) : g.carriesExec l = g'.carriesExec l := by
  rw [← carriesExec_skeleton, h.skeleton_eq, carriesExec_skeleton]
  rfl

theorem dataInputs_eq (id : NodeId) : g.dataInputs id = g'.dataInputs id :=
  dataInputs_of_skeleton h.skeleton_eq id

theorem feeds_iff {a b : NodeId} : g.Feeds a b ↔ g'.Feeds a b := by
  rw [Graph.feeds_iff, h.dataInputs_eq, Graph.feeds_iff]

theorem targetPin?_eq (l : Link) : g.targetPin? l = g'.targetPin? l :=
  targetPin?_of_skeleton h.skeleton_eq l

theorem react_eq (id : NodeId) (m : Memory) : g.react id m = g'.react id m :=
  react_of_skeleton h.skeleton_eq id m

theorem map_node?_eq {α : Type} (f : Node → α) (hf : ∀ n : Node, f n.skeleton = f n)
    (id : NodeId) : (g.node? id).map f = (g'.node? id).map f :=
  map_node?_of_skeleton f hf h.skeleton_eq id

theorem size_nodes_eq : g.nodes.size = g'.nodes.size := by
  have hsize : ∀ g : Graph, g.skeleton.nodes.size = g.nodes.size := fun _ => List.length_map _
  rw [← hsize, h.nodes, hsize]

theorem advance_eq (target : NodeId) (steps : Nat) (w : Dependency.Walk) :
    w.advance g target steps = w.advance g' target steps := by
  induction steps generalizing w with
  | zero => rfl
  | succ steps ih =>
    have hstep : w.step g target = w.step g' target := by
      simp only [Dependency.Walk.step, Dependency.freshSources, h.dataInputs_eq, h.hasNode_eq,
        h.isPure_eq]
    rw [Dependency.Walk.advance, hstep, ih, Dependency.Walk.advance]

theorem dependencies_eq (target : NodeId) : g.dependencies target = g'.dependencies target := by
  rw [dependencies, h.size_nodes_eq, h.connections, h.advance_eq, dependencies]

theorem wellFormed (hwf : g.WellFormed) : g'.WellFormed := by
  rw [WellFormed, ← h.connections]
  exact hwf.transfer fun c _ => (fits_iff_of_skeleton h.skeleton_eq c.toLink).1

theorem successors_eq (id : NodeId) (pin : Option Nat) :
    Execution.successors g id pin = Execution.successors g' id pin := by
  simp only [Execution.successors, h.connections, h.carriesExec_eq, h.hasNode_eq]

theorem enterAll_eq (id : NodeId) (pin : Option Nat) :
    Execution.enterAll g id pin = Execution.enterAll g' id pin := by
  rw [Execution.enterAll, h.successors_eq, Execution.enterAll]

theorem stepBound_eq : Execution.stepBound g = Execution.stepBound g' := by
  rw [Execution.stepBound, h.connections, h.size_nodes_eq, Execution.stepBound]

end SameWiring

theorem sameWiring_refreshInputs (g : Graph) (target : NodeId) :
    g.SameWiring (g.refreshInputs target).graph :=
  .of_skeleton (Run.skeleton_refreshInputs { graph := g } target).symm

end Graph

end FlowGraph
