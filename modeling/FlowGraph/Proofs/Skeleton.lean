import FlowGraph.Graph.Command
import FlowGraph.Proofs.WellFormed
import FlowGraph.Table.Lemmas

/-!
# What refreshing and executing leave alone

The skeleton of a graph is the graph without what its nodes remember, without their marks
and without the data order.  Nodes, pins, flow roles, behaviors, connections and settings
are all part of it.  Refreshing and executing keep the skeleton, and a question about
pins and connections has one answer for all graphs with the same skeleton.
-/

namespace FlowGraph

/-- The node without its memory and its mark. -/
def Node.skeleton (n : Node) : Node := { n with memory := {}, active := false }

@[simp]
theorem Node.skeleton_id (n : Node) : n.skeleton.id = n.id := rfl

namespace Graph

/-- The graph without what nodes remember, their marks and the data order. -/
def skeleton (g : Graph) : Graph :=
  { g with nodes := g.nodes.map Node.skeleton Node.skeleton_id, knownOrder := none }

variable {g g' : Graph}

@[simp]
theorem connections_skeleton (g : Graph) : g.skeleton.connections = g.connections := rfl

@[simp]
theorem nextId_skeleton (g : Graph) : g.skeleton.nextId = g.nextId := rfl

@[simp]
theorem settings_skeleton (g : Graph) : g.skeleton.settings = g.settings := rfl

@[simp]
theorem node?_skeleton (g : Graph) (id : NodeId) :
    g.skeleton.node? id = (g.node? id).map Node.skeleton :=
  Table.find?_map g.nodes Node.skeleton Node.skeleton_id id

@[simp]
theorem hasNode_skeleton (g : Graph) (id : NodeId) : g.skeleton.hasNode id = g.hasNode id := by
  simp [hasNode]

@[simp]
theorem sourcePin?_skeleton (g : Graph) (l : Link) : g.skeleton.sourcePin? l = g.sourcePin? l := by
  rw [sourcePin?, node?_skeleton, Option.bind_map]
  rfl

@[simp]
theorem targetPin?_skeleton (g : Graph) (l : Link) : g.skeleton.targetPin? l = g.targetPin? l := by
  rw [targetPin?, node?_skeleton, Option.bind_map]
  rfl

@[simp]
theorem carriesExec_skeleton (g : Graph) (l : Link) :
    g.skeleton.carriesExec l = g.carriesExec l := by
  rw [carriesExec, sourcePin?_skeleton, carriesExec]

@[simp]
theorem carriesData_skeleton (g : Graph) (l : Link) :
    g.skeleton.carriesData l = g.carriesData l := by
  rw [carriesData, sourcePin?_skeleton, carriesData]

@[simp]
theorem isPure_skeleton (g : Graph) (id : NodeId) : g.skeleton.isPure id = g.isPure id := by
  rw [isPure, node?_skeleton, Option.any_map]
  rfl

@[simp]
theorem dataInputs_skeleton (g : Graph) (id : NodeId) :
    g.skeleton.dataInputs id = g.dataInputs id := by
  simp only [dataInputs, connections_skeleton, carriesData_skeleton]

@[simp]
theorem feedsData_skeleton (g : Graph) (id : NodeId) :
    g.skeleton.feedsData id = g.feedsData id := by
  simp only [feedsData, connections_skeleton, carriesData_skeleton]

@[simp]
theorem fits_skeleton (g : Graph) (l : Link) : g.skeleton.Fits l ↔ g.Fits l := by
  rw [Fits, sourcePin?_skeleton, targetPin?_skeleton, Fits]

theorem connections_eq_of_skeleton (h : g.skeleton = g'.skeleton) :
    g.connections = g'.connections := by
  rw [← connections_skeleton g, h, connections_skeleton]

theorem nextId_eq_of_skeleton (h : g.skeleton = g'.skeleton) : g.nextId = g'.nextId := by
  rw [← nextId_skeleton g, h, nextId_skeleton]

theorem settings_eq_of_skeleton (h : g.skeleton = g'.skeleton) : g.settings = g'.settings := by
  rw [← settings_skeleton g, h, settings_skeleton]

theorem fits_iff_of_skeleton (h : g.skeleton = g'.skeleton) (l : Link) :
    g.Fits l ↔ g'.Fits l := by
  rw [← fits_skeleton g, h, fits_skeleton]

theorem hasNode_of_skeleton (h : g.skeleton = g'.skeleton) (id : NodeId) :
    g.hasNode id = g'.hasNode id := by
  rw [← hasNode_skeleton g, h, hasNode_skeleton]

theorem carriesData_of_skeleton (h : g.skeleton = g'.skeleton) (l : Link) :
    g.carriesData l = g'.carriesData l := by
  rw [← carriesData_skeleton g, h, carriesData_skeleton]

theorem isPure_of_skeleton (h : g.skeleton = g'.skeleton) (id : NodeId) :
    g.isPure id = g'.isPure id := by
  rw [← isPure_skeleton g, h, isPure_skeleton]

theorem dataInputs_of_skeleton (h : g.skeleton = g'.skeleton) (id : NodeId) :
    g.dataInputs id = g'.dataInputs id := by
  rw [← dataInputs_skeleton g, h, dataInputs_skeleton]

theorem feedsData_of_skeleton (h : g.skeleton = g'.skeleton) (id : NodeId) :
    g.feedsData id = g'.feedsData id := by
  rw [← feedsData_skeleton g, h, feedsData_skeleton]

theorem targetPin?_of_skeleton (h : g.skeleton = g'.skeleton) (l : Link) :
    g.targetPin? l = g'.targetPin? l := by
  rw [← targetPin?_skeleton g, h, targetPin?_skeleton]

/-- What does not depend on memory and mark is the same at each node. -/
theorem map_node?_of_skeleton {α : Type} (f : Node → α) (hf : ∀ n : Node, f n.skeleton = f n)
    (h : g.skeleton = g'.skeleton) (id : NodeId) : (g.node? id).map f = (g'.node? id).map f := by
  have hmap : ∀ g : Graph, (g.node? id).map f = (g.skeleton.node? id).map f := by
    intro g
    simp only [node?_skeleton, Option.map_map, Function.comp_def, hf]
  rw [hmap, h, ← hmap]

theorem flow_of_skeleton (h : g.skeleton = g'.skeleton) (id : NodeId) :
    (g.node? id).map Node.flow = (g'.node? id).map Node.flow :=
  map_node?_of_skeleton Node.flow (fun _ => rfl) h id

theorem WellFormed.of_skeleton (hwf : g.WellFormed) (h : g'.skeleton = g.skeleton) :
    g'.WellFormed := by
  rw [WellFormed, connections_eq_of_skeleton h]
  exact hwf.transfer fun c _ hfits => (fits_iff_of_skeleton h c.toLink).2 hfits

/-! ## Changes of one node -/

theorem skeleton_modify (g : Graph) (id : NodeId) (f : Node → Node)
    (hid : ∀ n, (f n).id = n.id) (hskeleton : ∀ n, (f n).skeleton = n.skeleton) :
    { g with nodes := g.nodes.modify id f hid }.skeleton = g.skeleton := by
  have hnodes := Table.map_modify g.nodes id f Node.skeleton hid Node.skeleton_id hskeleton
  simp only [skeleton, hnodes]

@[simp]
theorem skeleton_setMemory (g : Graph) (id : NodeId) (memory : Memory) :
    (g.setMemory id memory).skeleton = g.skeleton :=
  skeleton_modify g id _ _ fun _ => rfl

@[simp]
theorem skeleton_setInput (g : Graph) (id : NodeId) (pin : Nat) (value : Value) :
    (g.setInput id pin value).skeleton = g.skeleton :=
  skeleton_modify g id _ _ fun _ => rfl

@[simp]
theorem skeleton_setOutput (g : Graph) (id : NodeId) (pin : Nat) (value : Value) :
    (g.setOutput id pin value).skeleton = g.skeleton :=
  skeleton_modify g id _ _ fun _ => rfl

@[simp]
theorem skeleton_setActive (g : Graph) (id : NodeId) (active : Bool) :
    (g.setActive id active).skeleton = g.skeleton :=
  skeleton_modify g id _ _ fun _ => rfl

theorem Node.skeleton_resetInput (n : Node) (index : Nat) :
    (n.resetInput index).skeleton = n.skeleton := by
  rw [Node.resetInput]
  split
  · rfl
  · split
    · split <;> rfl
    · rfl

@[simp]
theorem skeleton_resetInput (g : Graph) (id : NodeId) (pin : Nat) :
    (g.resetInput id pin).skeleton = g.skeleton :=
  skeleton_modify g id _ _ fun n => Node.skeleton_resetInput n pin

end Graph

/-! ## Refreshing -/

namespace Run

/-- A fold keeps the skeleton if each of its steps does. -/
theorem skeleton_foldl {α : Type} {f : Run → α → Run}
    (hstep : ∀ r a, (f r a).graph.skeleton = r.graph.skeleton) (r : Run) (as : List α) :
    (as.foldl f r).graph.skeleton = r.graph.skeleton := by
  induction as generalizing r with
  | nil => rfl
  | cons a as ih => rw [List.foldl_cons, ih, hstep]

@[simp]
theorem skeleton_invoke (r : Run) (id : NodeId) :
    (r.invoke id).graph.skeleton = r.graph.skeleton := by
  rw [invoke]
  split
  · rfl
  · exact Graph.skeleton_setMemory r.graph id _

@[simp]
theorem skeleton_invokeIfPure (r : Run) (id : NodeId) :
    (r.invokeIfPure id).graph.skeleton = r.graph.skeleton := by
  rw [invokeIfPure]
  split
  · exact skeleton_invoke r id
  · rfl

@[simp]
theorem skeleton_copy (r : Run) (c : Connection) :
    (r.copy c).graph.skeleton = r.graph.skeleton := by
  rw [copy]
  split
  · rfl
  · split
    · exact Graph.skeleton_setInput r.graph _ _ _
    · rfl

@[simp]
theorem skeleton_copyAll (r : Run) (connections : List Connection) :
    (r.copyAll connections).graph.skeleton = r.graph.skeleton :=
  skeleton_foldl skeleton_copy r connections

@[simp]
theorem skeleton_refreshNode (pureOnly : Bool) (r : Run) (id : NodeId) :
    (r.refreshNode pureOnly id).graph.skeleton = r.graph.skeleton := by
  rw [refreshNode]
  split <;> simp

@[simp]
theorem skeleton_refreshConnection (r : Run) (id : ConnectionId) :
    (r.refreshConnection id).graph.skeleton = r.graph.skeleton := by
  rw [refreshConnection]
  split
  · rfl
  · split <;> simp

@[simp]
theorem skeleton_refreshDependency (target : NodeId) (r : Run) (id : NodeId) :
    (r.refreshDependency target id).graph.skeleton = r.graph.skeleton := by
  rw [refreshDependency]
  split <;> simp

@[simp]
theorem skeleton_refreshInputs (r : Run) (target : NodeId) :
    (r.refreshInputs target).graph.skeleton = r.graph.skeleton :=
  skeleton_foldl (skeleton_refreshDependency target) r _

end Run

@[simp]
theorem Graph.skeleton_knowOrder (g : Graph) : g.knowOrder.graph.skeleton = g.skeleton := by
  rw [knowOrder]
  split <;> rfl

@[simp]
theorem Graph.skeleton_sweep (g : Graph) (pureOnly : Bool) :
    (g.sweep pureOnly).graph.skeleton = g.skeleton := by
  have hfold := Run.skeleton_foldl (Run.skeleton_refreshNode pureOnly) g.knowOrder.toRun
    g.knowOrder.result
  rw [skeleton_knowOrder] at hfold
  exact hfold

/-! ## Executing -/

namespace Execution

@[simp]
theorem skeleton_prepare (r : Run) (id : NodeId) :
    (prepare r id).graph.skeleton = r.graph.skeleton := by
  rw [prepare]
  split
  · exact Run.skeleton_refreshInputs r id
  · rfl

@[simp]
theorem graph_continuation (r : Run) (n : Node) : (continuation r n).1.graph = r.graph := by
  rw [continuation]
  split <;> rfl

theorem skeleton_enter (r : Run) (id : NodeId) (stack : List Pending) :
    (enter r id stack).run.graph.skeleton = r.graph.skeleton := by
  rw [enter]
  dsimp only
  split
  · split <;> simp
  · exact skeleton_prepare r id

theorem skeleton_pass (r : Run) (id : NodeId) (next limit : Int32) (stack : List Pending) :
    (pass r id next limit stack).run.graph.skeleton = r.graph.skeleton := by
  rw [pass]
  split
  · split
    · exact Graph.skeleton_setOutput r.graph _ _ _
    · rfl
  · rfl

/-- One step of the machine keeps the skeleton. -/
theorem skeleton_step (m : Machine) : m.step.run.graph.skeleton = m.run.graph.skeleton := by
  rw [Machine.step]
  split
  · rfl
  · exact skeleton_enter _ _ _
  · exact Graph.skeleton_setActive _ _ _
  · exact skeleton_pass _ _ _ _ _

/-- A whole run of the machine keeps the skeleton. -/
theorem skeleton_finish? {steps : Nat} {m : Machine} {r : Run}
    (h : m.finish? steps = some r) : r.graph.skeleton = m.run.graph.skeleton := by
  induction steps generalizing m with
  | zero => cases h
  | succ steps ih =>
    rw [Machine.finish?] at h
    split at h
    · cases h
      rfl
    · rw [ih h, skeleton_step]

end Execution

open Execution

theorem Run.skeleton_execute {r r' : Run} {start : NodeId} (h : r.execute start = .ok r') :
    r'.graph.skeleton = r.graph.skeleton := by
  rw [execute] at h
  split at h
  · split at h
    next run hfinish =>
      cases h
      exact skeleton_finish? hfinish
    · cases h
  · cases h

namespace Graph

@[simp]
theorem skeleton_execute (g : Graph) (start : NodeId) :
    (g.execute start).graph.skeleton = g.skeleton := by
  rw [execute]
  split
  next run hrun => exact Run.skeleton_execute hrun
  next => rfl

/-- An early refresh keeps the skeleton. -/
theorem skeleton_refreshed_first (g : Graph) :
    (if g.settings.refreshesFirst then g.refreshAll else ({ graph := g } : Run)).graph.skeleton =
      g.skeleton := by
  split
  · exact skeleton_sweep g false
  · rfl

/-- What a refresh of all values and executions keep is kept when an event is executed. -/
theorem fire_induction {P : Graph → Prop} {g : Graph} (title : String) (hstart : P g)
    (hrefreshed : P g.refreshAll.graph) (hexecuted : ∀ (r out : Run) (start : NodeId),
      P r.graph → r.execute start = .ok out → P out.graph) : P (g.fire title).graph := by
  rw [fire]
  split
  next => exact hstart
  next entry _ =>
    have hfirst : P (if g.settings.refreshesFirst then g.refreshAll
        else ({ graph := g } : Run)).graph := by
      split
      · exact hrefreshed
      · exact hstart
    dsimp only
    split
    next out hrun => exact hexecuted _ out entry hfirst hrun
    next => exact hfirst

@[simp]
theorem skeleton_fire (g : Graph) (title : String) :
    (g.fire title).graph.skeleton = g.skeleton := by
  apply fire_induction (P := fun g' => g'.skeleton = g.skeleton) title rfl (skeleton_sweep g false)
  exact fun _ _ _ hr hrun => (Run.skeleton_execute hrun).trans hr

@[simp]
theorem skeleton_perform (g : Graph) (command : Command) :
    (g.perform command).graph.skeleton = g.skeleton := by
  cases command with
  | refreshPure => exact skeleton_sweep g true
  | refreshAll => exact skeleton_sweep g false
  | refreshConnection id => exact Run.skeleton_refreshConnection _ id
  | refreshInputs node =>
    rw [perform]
    split
    · exact Run.skeleton_refreshInputs _ node
    · rfl
  | execute node => exact skeleton_execute g node

end Graph

end FlowGraph
