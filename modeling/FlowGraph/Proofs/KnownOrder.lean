import FlowGraph.Proofs.Operation
import FlowGraph.Proofs.Recast
import FlowGraph.Proofs.Removal

/-!
# The known data order is the present one

A graph keeps its data order until its structure changes.  Every operation that changes
nodes or connections forgets the order, and no other operation changes what it is
calculated from; so an order that is kept is the order of the present structure, whatever
has been done to the graph.
-/

namespace FlowGraph

namespace Graph

variable {g g' : Graph}

/-! ## What the order is calculated from -/

theorem dataOrder_congr (hids : g'.nodeIds = g.nodeIds)
    (hconnections : g'.connections = g.connections)
    (houtputs : ∀ id, (g'.node? id).map Node.outputs = (g.node? id).map Node.outputs) :
    g'.dataOrder = g.dataOrder := by
  have hlive : ∀ id, g'.hasNode id = g.hasNode id := by
    intro id
    rw [hasNode, ← Option.isSome_map, houtputs, Option.isSome_map, hasNode]
  have hdata : ∀ l, g'.carriesData l = g.carriesData l := by
    intro l
    rw [carriesData, sourcePin?_congr (houtputs l.source), carriesData]
  simp only [dataOrder, dataEdges, hids, hconnections, hlive, hdata]

theorem OrderCurrent.of_none (h : g.knownOrder = none) : g.OrderCurrent := by
  intro order horder
  rw [h] at horder
  cases horder

theorem OrderCurrent.transfer (h : g.OrderCurrent) (hknown : g'.knownOrder = g.knownOrder)
    (horder : g'.dataOrder = g.dataOrder) : g'.OrderCurrent := by
  intro order hmem
  rw [hknown] at hmem
  rw [horder]
  exact h order hmem

theorem dataOrder_of_skeleton (h : g'.skeleton = g.skeleton) : g'.dataOrder = g.dataOrder := by
  have hids : ∀ g : Graph, g.skeleton.nodeIds = g.nodeIds := by
    intro g
    simp [nodeIds, skeleton, Table.keys, Table.map, Function.comp_def]
  apply dataOrder_congr
  · rw [← hids, h, hids]
  · exact connections_eq_of_skeleton h
  · exact map_node?_of_skeleton Node.outputs (fun _ => rfl) h

/-- A change of one node that keeps its outputs keeps the known order current. -/
theorem OrderCurrent.modify (h : g.OrderCurrent) (id : NodeId) (f : Node → Node)
    (hid : ∀ n, (f n).id = n.id) (houtputs : ∀ n, (f n).outputs = n.outputs) :
    { g with nodes := g.nodes.modify id f hid }.OrderCurrent := by
  have hsame : { g with nodes := g.nodes.modify id f hid }.dataOrder = g.dataOrder := by
    apply dataOrder_congr
    · exact Table.keys_modify g.nodes id f hid
    · rfl
    intro other
    have hfind : (g.nodes.modify id f hid).find? other =
        if other = id then (g.node? other).map f else g.node? other :=
      Table.find?_modify g.nodes id other f hid
    rw [node?, hfind]
    split
    · rw [Option.map_map]
      congr 1
      funext n
      exact houtputs n
    · rfl
  exact h.transfer rfl hsame

theorem OrderCurrent.of_skeleton (h : g.OrderCurrent) (hskeleton : g'.skeleton = g.skeleton)
    (hknown : g'.knownOrder = g.knownOrder) : g'.OrderCurrent :=
  h.transfer hknown (dataOrder_of_skeleton hskeleton)

end Graph

/-! ## What keeps the known order -/

namespace Run

variable {r r' : Run} {start : NodeId}

theorem recast_self (r : Run) : r.recast r.graph.knownOrder [] = r := by
  rw [recast, List.append_nil]
  rfl

/-- What does the same whatever order is known leaves the known order alone. -/
theorem knownOrder_of_recast {f : Run → Run}
    (hf : ∀ r known past, f (r.recast known past) = (f r).recast known past) (r : Run) :
    (f r).graph.knownOrder = r.graph.knownOrder := by
  rw [← recast_self r, hf]
  rfl

/-- A fold keeps the known order if each of its steps does. -/
theorem knownOrder_foldl {α : Type} {f : Run → α → Run}
    (hstep : ∀ r a, (f r a).graph.knownOrder = r.graph.knownOrder) (r : Run) (as : List α) :
    (as.foldl f r).graph.knownOrder = r.graph.knownOrder := by
  induction as generalizing r with
  | nil => rfl
  | cons a as ih => rw [List.foldl_cons, ih, hstep]

theorem knownOrder_refreshNode (pureOnly : Bool) (r : Run) (id : NodeId) :
    (r.refreshNode pureOnly id).graph.knownOrder = r.graph.knownOrder :=
  knownOrder_of_recast (f := fun r => r.refreshNode pureOnly id)
    (fun r _ _ => recast_refreshNode pureOnly r id) r

theorem knownOrder_refreshConnection (r : Run) (id : ConnectionId) :
    (r.refreshConnection id).graph.knownOrder = r.graph.knownOrder :=
  knownOrder_of_recast (f := fun r => r.refreshConnection id)
    (fun r _ _ => recast_refreshConnection r id) r

theorem knownOrder_refreshInputs (r : Run) (target : NodeId) :
    (r.refreshInputs target).graph.knownOrder = r.graph.knownOrder :=
  knownOrder_of_recast (f := fun r => r.refreshInputs target)
    (fun r _ _ => recast_refreshInputs r target) r

theorem knownOrder_invoke (r : Run) (id : NodeId) :
    (r.invoke id).graph.knownOrder = r.graph.knownOrder :=
  knownOrder_of_recast (f := fun r => r.invoke id) (fun r _ _ => recast_invoke r id) r

theorem knownOrder_execute (h : r.execute start = .ok r') :
    r'.graph.knownOrder = r.graph.knownOrder := by
  have hrecast : (r.recast r.graph.knownOrder []).execute start =
      (r.execute start).map (·.recast r.graph.knownOrder []) :=
    recast_execute r start
  rw [recast_self, h] at hrecast
  have hsame : r' = r'.recast r.graph.knownOrder [] := Except.ok.inj hrecast
  rw [hsame]
  rfl

end Run

namespace Graph

variable {g g' : Graph}

theorem OrderCurrent.refreshConnection (h : g.OrderCurrent) (id : ConnectionId) :
    (g.refreshConnection id).graph.OrderCurrent :=
  h.of_skeleton (Run.skeleton_refreshConnection _ id) (Run.knownOrder_refreshConnection _ id)

theorem OrderCurrent.refreshInputs (h : g.OrderCurrent) (target : NodeId) :
    (g.refreshInputs target).graph.OrderCurrent :=
  h.of_skeleton (Run.skeleton_refreshInputs _ target) (Run.knownOrder_refreshInputs _ target)

theorem OrderCurrent.invoke (h : g.OrderCurrent) (id : NodeId) :
    (g.invoke id).graph.OrderCurrent :=
  h.of_skeleton (Run.skeleton_invoke _ id) (Run.knownOrder_invoke _ id)

theorem OrderCurrent.knowOrder (h : g.OrderCurrent) : g.knowOrder.graph.OrderCurrent := by
  rw [Graph.knowOrder]
  split
  · exact h
  · intro order horder
    cases horder
    rfl

theorem OrderCurrent.sweep (h : g.OrderCurrent) (pureOnly : Bool) :
    (g.sweep pureOnly).graph.OrderCurrent := by
  apply h.knowOrder.of_skeleton
  · rw [skeleton_sweep, skeleton_knowOrder]
  · exact Run.knownOrder_foldl (Run.knownOrder_refreshNode pureOnly) g.knowOrder.toRun _

theorem OrderCurrent.of_execute {r r' : Run} {start : NodeId} (h : r.graph.OrderCurrent)
    (hexecute : r.execute start = .ok r') : r'.graph.OrderCurrent :=
  h.of_skeleton (Run.skeleton_execute hexecute) (Run.knownOrder_execute hexecute)

theorem OrderCurrent.execute (h : g.OrderCurrent) (start : NodeId) :
    (g.execute start).graph.OrderCurrent := by
  rw [Graph.execute]
  split
  next run hrun => exact OrderCurrent.of_execute (r := { graph := g }) h hrun
  next => exact h

theorem OrderCurrent.fire (h : g.OrderCurrent) (title : String) :
    (g.fire title).graph.OrderCurrent :=
  fire_induction title h (h.sweep false) fun _ _ _ hr hrun => hr.of_execute hrun

theorem OrderCurrent.perform (h : g.OrderCurrent) (command : Command) :
    (g.perform command).graph.OrderCurrent := by
  cases command with
  | refreshPure => exact h.sweep true
  | refreshAll => exact h.sweep false
  | refreshConnection id => exact h.refreshConnection id
  | refreshInputs node =>
    rw [Graph.perform]
    split
    · exact h.refreshInputs node
    · exact h
  | execute node => exact h.execute node

/-! ## What forgets the order -/

theorem OrderCurrent.addNode (h : g.OrderCurrent) (spec : NodeSpec) :
    (g.addNode spec).graph.OrderCurrent := by
  rw [Graph.addNode]
  dsimp only
  split
  · exact h.transfer rfl rfl
  · exact .of_none rfl

theorem knownOrder_vacate (g : Graph) (l : Link) : (g.vacate l).knownOrder = g.knownOrder := by
  rw [vacate]
  split <;> rfl

theorem OrderCurrent.disconnectWhere (h : g.OrderCurrent) (p : Connection → Bool) :
    (g.disconnectWhere p).graph.OrderCurrent := by
  rw [Graph.disconnectWhere]
  dsimp only
  split
  · exact h
  · exact .of_none (Run.knownOrder_foldl (fun r c => knownOrder_vacate r.graph c.toLink) _ _)

theorem OrderCurrent.disconnect (h : g.OrderCurrent) (id : ConnectionId) :
    (g.disconnect id).1.OrderCurrent := by
  rw [Graph.disconnect]
  split
  · exact h
  · exact .of_none (knownOrder_vacate _ _)

theorem OrderCurrent.removeNode (h : g.OrderCurrent) (id : NodeId) :
    (g.removeNode id).graph.OrderCurrent := by
  rw [Graph.removeNode]
  split
  · exact .of_none rfl
  · exact h

theorem OrderCurrent.cleanup (h : g.OrderCurrent) : g.cleanup.graph.OrderCurrent := by
  rw [Graph.cleanup]
  dsimp only
  split
  · exact h
  · exact h.disconnectWhere _

theorem OrderCurrent.connect (h : g.OrderCurrent) (id : ConnectionId) (l : Link) :
    (g.connect id l).graph.OrderCurrent := by
  rw [Graph.connect]
  split
  · exact h
  · exact .of_none (Run.knownOrder_refreshConnection _ id)

/-- One step: no operation keeps an order that is not the present one. -/
theorem OrderCurrent.apply (h : g.OrderCurrent) (operation : Operation) :
    (operation.apply g).OrderCurrent := by
  cases operation with
  | addNode spec => exact h.addNode spec
  | spawn catalog key =>
    rw [Operation.apply, Catalog.spawn]
    split
    · exact h
    · exact h.addNode _
  | connect id l => exact h.connect id l
  | restore c => exact .of_none rfl
  | disconnect id => exact h.disconnect id
  | disconnectNode node => exact h.disconnectWhere _
  | disconnectPin node pin side => exact h.disconnectWhere _
  | removeNode node => exact h.removeNode node
  | validate => exact h
  | cleanup => exact h.cleanup
  | knowOrder => exact h.knowOrder
  | refreshPure => exact h.sweep true
  | refreshAll => exact h.sweep false
  | refreshConnection id => exact h.refreshConnection id
  | refreshInputs node => exact h.refreshInputs node
  | perform command => exact h.perform command
  | execute start => exact h.execute start
  | fire title => exact h.fire title
  | fireStart => exact h.fire _
  | fireTick => exact h.fire _
  | rename name => exact h.transfer rfl rfl
  | setSettings settings => exact h.transfer rfl rfl
  | setTitle node title => exact h.modify node _ _ fun _ => rfl
  | setCategory node category => exact h.modify node _ _ fun _ => rfl
  | setInput node pin value => exact h.modify node _ _ fun _ => rfl
  | setOutput node pin value => exact h.modify node _ _ fun _ => rfl
  | invoke node => exact h.invoke node

/-- In every graph that arises from operations, whatever is let through, the known order is
current. -/
theorem orderCurrent_of_reachable {permitted : Graph → Operation → Prop}
    (h : Reachable permitted g) : g.OrderCurrent := by
  induction h with
  | empty name settings => exact .of_none rfl
  | step operation _ _ ih => exact ih.apply operation

end Graph

end FlowGraph
