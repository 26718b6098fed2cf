import FlowGraph.Proofs.PathSearch
import FlowGraph.Proofs.Renumbering
import Mathlib.Data.List.Basic

/-!
# Runs under other numbers

Nothing that moves values or execution looks at the number of a node, except to tell whether
two ids are the same.  So to give the nodes other ids and then go on is to go on and then give
them other ids: the same is invoked, copied and entered, in the same order.
-/

namespace FlowGraph

variable (ρ : Equiv.Perm NodeId) (next : Nat)

theorem mem_map_renumber {id : NodeId} {ids : List NodeId} : ρ id ∈ ids.map ρ ↔ id ∈ ids :=
  List.mem_map_of_injective ρ.injective

/-! ## Paths -/

namespace Reach

theorem successors_renumber (edges : List (NodeId × NodeId)) (node : NodeId) :
    successors (edges.map (Prod.map ρ ρ)) (ρ node) = (successors edges node).map ρ := by
  have hfrom : (fun e => e.1 == ρ node) ∘ Prod.map ρ ρ =
      fun e : NodeId × NodeId => e.1 == node := by
    funext e
    exact beq_renumber ρ e.1 node
  rw [successors, List.filter_map, hfrom, successors, List.map_map, List.map_map]
  rfl

theorem Path.renumber {edges : List (NodeId × NodeId)} {a b : NodeId} (h : Path edges a b) :
    Path (edges.map (Prod.map ρ ρ)) (ρ a) (ρ b) :=
  h.lift ρ fun _ _ hedge => List.mem_map_of_mem hedge

theorem path_renumber_iff {edges : List (NodeId × NodeId)} {a b : NodeId} :
    Path (edges.map (Prod.map ρ ρ)) (ρ a) (ρ b) ↔ Path edges a b := by
  refine ⟨fun h => ?_, .renumber ρ⟩
  have hedges : (edges.map (Prod.map ρ ρ)).map (Prod.map ρ.symm ρ.symm) = edges := by
    rw [List.map_map, Prod.map_comp_map, ρ.symm_comp_self, Prod.map_id, List.map_id]
  have hback := h.renumber ρ.symm
  rwa [hedges, ρ.symm_apply_apply, ρ.symm_apply_apply] at hback

end Reach

theorem Connection.edges_renumber (connections : List Connection) :
    edges (connections.map (renumber ρ)) = (edges connections).map (Prod.map ρ ρ) := by
  rw [edges, edges, List.map_map, List.map_map]
  rfl

theorem Adjacency.pathExists_renumber (connections : List Connection) (start goal : NodeId) :
    (ofConnections (connections.map (Connection.renumber ρ))).pathExists (ρ start) (ρ goal) =
      (ofConnections connections).pathExists start goal := by
  rw [Bool.eq_iff_iff, pathExists_ofConnections_iff, pathExists_ofConnections_iff,
    Connection.edges_renumber, Reach.path_renumber_iff]

/-! ## The data order -/

namespace DataOrder.Sorting

def renumber (s : Sorting) : Sorting where
  waiting := s.waiting.map (Prod.map ρ id)
  queue := s.queue.map ρ
  taken := s.taken.map ρ

theorem lookup_map_renumber (waiting : List (NodeId × Nat)) (node : NodeId) :
    (waiting.map (Prod.map ρ id)).lookup (ρ node) = waiting.lookup node := by
  induction waiting with
  | nil => rfl
  | cons entry waiting ih =>
    rw [List.map_cons, List.lookup_cons, List.lookup_cons, ih]
    simp only [Prod.map_fst, Prod.map_snd, beq_renumber, id_eq]

theorem release_renumber (s : Sorting) (target : NodeId) :
    (s.renumber ρ).release (ρ target) = (s.release target).renumber ρ := by
  have hrelease : ∀ (s : Sorting) (target : NodeId) (waiting : List (NodeId × Nat)),
      (s.waiting.map fun e => if e.1 = target then (e.1, e.2 - 1) else e) = waiting →
        s.release target = if waiting.lookup target = some 0 then
          { s with waiting := waiting, queue := s.queue ++ [target] }
        else { s with waiting := waiting } := by
    rintro s target _ rfl
    rfl
  have hwaiting :
      ((s.renumber ρ).waiting.map fun e => if e.1 = ρ target then (e.1, e.2 - 1) else e) =
        (s.waiting.map fun e => if e.1 = target then (e.1, e.2 - 1) else e).map (Prod.map ρ id) := by
    rw [renumber, List.map_map, List.map_map]
    apply List.map_congr_left
    intro e _
    simp only [Function.comp_apply, Prod.map_fst, Prod.map_snd, ρ.apply_eq_iff_eq]
    split <;> rfl
  rw [hrelease _ _ _ hwaiting, hrelease _ _ _ rfl, lookup_map_renumber]
  split
  · simp only [renumber, List.map_append, List.map_singleton]
  · rfl

theorem releaseAll_renumber (targets : List NodeId) (s : Sorting) :
    (targets.map ρ).foldl release (s.renumber ρ) = (targets.foldl release s).renumber ρ := by
  rw [List.foldl_map]
  exact List.foldl_hom (renumber ρ) (release_renumber ρ)

theorem takeFree_renumber (edges : List (NodeId × NodeId)) (steps : Nat) (s : Sorting) :
    takeFree (edges.map (Prod.map ρ ρ)) steps (s.renumber ρ) =
      (takeFree edges steps s).renumber ρ := by
  induction steps generalizing s with
  | zero => rfl
  | succ steps ih =>
    obtain ⟨waiting, _ | ⟨current, rest⟩, taken⟩ := s
    · rfl
    · have hnext := releaseAll_renumber ρ (Reach.successors edges current)
        ⟨waiting, rest, current :: taken⟩
      rw [← Reach.successors_renumber] at hnext
      exact (congrArg (takeFree (edges.map (Prod.map ρ ρ)) steps) hnext).trans (ih _)

theorem start_renumber (nodes : List NodeId) (edges : List (NodeId × NodeId)) :
    start (nodes.map ρ) (edges.map (Prod.map ρ ρ)) = (start nodes edges).renumber ρ := by
  have hinto : ∀ (e : NodeId × NodeId) id, ((Prod.map ρ ρ e).2 == ρ id) = (e.2 == id) :=
    fun e id => beq_renumber ρ e.2 id
  simp only [start, renumber, List.map_map, List.filter_map, List.countP_map, List.any_map,
    Function.comp_def, Prod.map_apply, hinto, List.map_nil, id_eq]

end DataOrder.Sorting

theorem DataOrder.sort_renumber (nodes : List NodeId) (edges : List (NodeId × NodeId)) :
    sort (nodes.map ρ) (edges.map (Prod.map ρ ρ)) = (sort nodes edges).map ρ := by
  rw [sort, List.length_map, Sorting.start_renumber, Sorting.takeFree_renumber, sort,
    List.map_reverse]
  rfl

namespace Graph

variable (g : Graph)

theorem dataEdges_renumber :
    (g.renumber ρ next).dataEdges = g.dataEdges.map (Prod.map ρ ρ) := by
  rw [dataEdges, dataEdges, ← Connection.edges_renumber]
  apply congrArg Connection.edges
  apply filter_connections_renumber
  intro c
  exact congrArg₂ and (g.hasNode_renumber ρ next c.target) (g.carriesData_renumber ρ next c.toLink)

theorem dataOrder_renumber : (g.renumber ρ next).dataOrder = g.dataOrder.map ρ := by
  rw [dataOrder, nodeIds_renumber, dataEdges_renumber, DataOrder.sort_renumber, dataOrder]

theorem knowOrder_renumber :
    (g.renumber ρ next).knowOrder = g.knowOrder.renumber ρ next (List.map ρ) := by
  have hknown : (g.renumber ρ next).knownOrder = g.knownOrder.map (List.map ρ) := rfl
  rw [knowOrder, knowOrder, hknown]
  cases g.knownOrder with
  | some order => rfl
  | none =>
    dsimp only [Option.map_none]
    rw [dataOrder_renumber, List.length_map]
    rfl

end Graph

/-! ## Refreshing -/

namespace Event

@[simp]
theorem ofRemark_renumber (id : NodeId) (remark : Remark) :
    ofRemark (ρ id) remark = (ofRemark id remark).renumber ρ := by
  cases remark <;> rfl

theorem stats_renumber (journal : List Event) :
    Stats.ofEvents (journal.map (renumber ρ)) = Stats.ofEvents journal := by
  have hinvocation : isInvocation ∘ renumber ρ = isInvocation := by
    funext e
    cases e <;> rfl
  have hcopy : isCopy ∘ renumber ρ = isCopy := by
    funext e
    cases e <;> rfl
  rw [Stats.ofEvents, List.countP_map, List.countP_map, hinvocation, hcopy, Stats.ofEvents]

end Event

namespace Run

variable (r : Run)

theorem foldl_renumber {α β : Type} {f : Run → α → Run} {f' : Run → β → Run} {h : α → β}
    (hf : ∀ r a, f' (r.renumber ρ next) (h a) = (f r a).renumber ρ next) (as : List α) :
    (as.map h).foldl f' (r.renumber ρ next) = (as.foldl f r).renumber ρ next := by
  rw [List.foldl_map]
  exact List.foldl_hom (renumber ρ next) hf

@[simp]
theorem invoke_renumber (id : NodeId) :
    (r.renumber ρ next).invoke (ρ id) = (r.invoke id).renumber ρ next := by
  have hnode := r.graph.node?_renumber ρ next id
  rw [invoke, invoke, renumber, hnode]
  cases r.graph.node? id with
  | none => rfl
  | some n =>
    have hremarks : n.react.2.map (Event.ofRemark (ρ id)) =
        (n.react.2.map (Event.ofRemark id)).map (Event.renumber ρ) := by
      rw [List.map_map]
      exact List.map_congr_left fun remark _ => Event.ofRemark_renumber ρ id remark
    dsimp only [Option.map_some]
    rw [Node.react_renumber, Graph.setMemory_renumber, hremarks, ← List.map_reverse]
    simp only [renumber, List.map_append, List.map_cons]
    rfl

@[simp]
theorem invokeIfPure_renumber (id : NodeId) :
    (r.renumber ρ next).invokeIfPure (ρ id) = (r.invokeIfPure id).renumber ρ next := by
  have hpure := r.graph.isPure_renumber ρ next id
  rw [invokeIfPure, invokeIfPure, invoke_renumber, renumber, hpure]
  split <;> rfl

@[simp]
theorem copy_renumber (c : Connection) :
    (r.renumber ρ next).copy (c.renumber ρ) = (r.copy c).renumber ρ next := by
  have hvalue : ((r.renumber ρ next).graph.node? (c.renumber ρ).source).bind
        (·.memory.outputs.get? c.sourcePin) =
      (r.graph.node? c.source).bind (·.memory.outputs.get? c.sourcePin) := by
    rw [renumber, Connection.renumber, Link.renumber, Graph.node?_renumber, Option.bind_map]
    rfl
  have hslot : ((r.renumber ρ next).graph.node? (c.renumber ρ).target).bind
        (·.input? c.targetPin) = (r.graph.node? c.target).bind (·.input? c.targetPin) := by
    rw [renumber, Connection.renumber, Link.renumber, Graph.node?_renumber, Option.bind_map]
    rfl
  have hpins : (c.renumber ρ).sourcePin = c.sourcePin ∧ (c.renumber ρ).targetPin = c.targetPin :=
    ⟨rfl, rfl⟩
  rw [copy, copy, hpins.1, hpins.2, hvalue, hslot]
  split
  next => rfl
  next value _ =>
    have hset := r.graph.setInput_renumber ρ next c.target c.targetPin value
    split
    · exact congrArg (fun graph => Run.mk graph (.copied c.id :: r.journal.map (.renumber ρ))) hset
    · rfl

@[simp]
theorem copyAll_renumber (connections : List Connection) :
    (r.renumber ρ next).copyAll (connections.map (Connection.renumber ρ)) =
      (r.copyAll connections).renumber ρ next :=
  foldl_renumber ρ next r (copy_renumber ρ next) connections

@[simp]
theorem refreshNode_renumber (pureOnly : Bool) (id : NodeId) :
    (r.renumber ρ next).refreshNode pureOnly (ρ id) =
      (r.refreshNode pureOnly id).renumber ρ next := by
  have hfeeds : ∀ r : Run, (r.renumber ρ next).graph.feedsData (ρ id) = r.graph.feedsData id :=
    fun r => r.graph.feedsData_renumber ρ next id
  have hinputs : ((r.renumber ρ next).graph.dataInputs (ρ id)).filter
        (fun c => !pureOnly || (r.renumber ρ next).graph.isPure c.source) =
      ((r.graph.dataInputs id).filter fun c => !pureOnly || r.graph.isPure c.source).map
        (Connection.renumber ρ) := by
    have hpure : ∀ c : Connection, (r.graph.renumber ρ next).isPure (c.renumber ρ).source =
        r.graph.isPure c.source :=
      fun c => r.graph.isPure_renumber ρ next c.source
    simp only [renumber, Graph.dataInputs_renumber, List.filter_map, Function.comp_def, hpure]
  simp only [refreshNode, hinputs, copyAll_renumber, hfeeds, invokeIfPure_renumber]
  split <;> rfl

@[simp]
theorem refreshConnection_renumber (id : ConnectionId) :
    (r.renumber ρ next).refreshConnection id = (r.refreshConnection id).renumber ρ next := by
  have hconnection := r.graph.connection?_renumber ρ next id
  rw [refreshConnection, refreshConnection, renumber, hconnection]
  cases r.graph.connection? id with
  | none => rfl
  | some c =>
    have hdata := r.graph.carriesData_renumber ρ next c.toLink
    have hrefreshed : ((r.renumber ρ next).invokeIfPure (ρ c.source)).copy (c.renumber ρ) =
        ((r.invokeIfPure c.source).copy c).renumber ρ next := by
      rw [invokeIfPure_renumber, copy_renumber]
    dsimp only [Option.map_some, Connection.renumber]
    rw [hdata]
    split
    · exact hrefreshed
    · rfl

end Run

theorem Graph.sweep_renumber (g : Graph) (pureOnly : Bool) :
    (g.renumber ρ next).sweep pureOnly = (g.sweep pureOnly).renumber ρ next := by
  have hrun := Run.foldl_renumber ρ next g.knowOrder.toRun
    (fun r id => r.refreshNode_renumber ρ next pureOnly id) g.knowOrder.result
  rw [sweep, knowOrder_renumber, sweep]
  dsimp only [Outcome.renumber, Run.answer]
  rw [hrun]
  simp only [Run.record, Run.renumber, Run.stats, Event.stats_renumber, List.map_cons]
  rfl

/-! ## What a node depends on -/

namespace Dependency

def Walk.renumber (w : Walk) : Walk where
  visited := w.visited.map ρ
  listed := w.listed.map ρ
  stack := w.stack.map (Prod.map ρ id)

theorem freshSources_renumber (g : Graph) (visited : List NodeId) (id : NodeId) :
    freshSources (g.renumber ρ next) (visited.map ρ) (ρ id) =
      (freshSources g visited id).map ρ := by
  have hsources : ((g.dataInputs id).map (Connection.renumber ρ)).map (fun c => c.source) =
      ((g.dataInputs id).map fun c => c.source).map ρ := by
    rw [List.map_map, List.map_map]
    rfl
  rw [freshSources, Graph.dataInputs_renumber, hsources]
  simp only [List.filter_map, Function.comp_def, mem_map_renumber, Graph.hasNode_renumber,
    freshSources]

theorem Walk.step_renumber (g : Graph) (target : NodeId) (w : Walk) :
    (w.renumber ρ).step (g.renumber ρ next) (ρ target) = (w.step g target).renumber ρ := by
  obtain ⟨visited, listed, _ | ⟨⟨id, waiting⟩, stack⟩⟩ := w
  · rfl
  · cases waiting with
    | true => rfl
    | false =>
      have hsources : (if ρ id = ρ target || (g.renumber ρ next).isPure (ρ id) then
            freshSources (g.renumber ρ next) ((id :: visited).map ρ) (ρ id) else []) =
          (if id = target || g.isPure id then freshSources g (id :: visited) id else []).map ρ := by
        simp only [ρ.apply_eq_iff_eq, Graph.isPure_renumber, freshSources_renumber]
        split <;> rfl
      simp only [step, renumber, Prod.map_apply, id_eq, List.map_cons, mem_map_renumber]
        at hsources ⊢
      rw [hsources]
      split
      · rfl
      · simp only [List.map_append, List.map_cons, ← List.map_reverse, List.map_map]
        rfl

theorem Walk.advance_renumber (g : Graph) (target : NodeId) (steps : Nat) (w : Walk) :
    (w.renumber ρ).advance (g.renumber ρ next) (ρ target) steps =
      (w.advance g target steps).renumber ρ := by
  induction steps generalizing w with
  | zero => rfl
  | succ steps ih => rw [advance, step_renumber, ih, advance]

end Dependency

theorem Graph.size_nodes_renumber (g : Graph) :
    (g.renumber ρ next).nodes.size = g.nodes.size :=
  List.length_map _

theorem Graph.size_connections_renumber (g : Graph) :
    (g.renumber ρ next).connections.size = g.connections.size :=
  List.length_map _

@[simp]
theorem Graph.dependencies_renumber (g : Graph) (target : NodeId) :
    (g.renumber ρ next).dependencies (ρ target) = (g.dependencies target).map ρ := by
  have hstart : (⟨[], [], [(ρ target, false)]⟩ : Dependency.Walk) =
      Dependency.Walk.renumber ρ ⟨[], [], [(target, false)]⟩ := rfl
  rw [dependencies, size_nodes_renumber, size_connections_renumber, hstart,
    Dependency.Walk.advance_renumber, dependencies, List.map_reverse]
  rfl

namespace Run

variable (r : Run)

theorem refreshDependency_renumber (target id : NodeId) :
    (r.renumber ρ next).refreshDependency (ρ target) (ρ id) =
      (r.refreshDependency target id).renumber ρ next := by
  have hinputs := r.graph.dataInputs_renumber ρ next id
  have hcopied : (r.renumber ρ next).copyAll ((r.renumber ρ next).graph.dataInputs (ρ id)) =
      (r.copyAll (r.graph.dataInputs id)).renumber ρ next := by
    rw [← copyAll_renumber, ← hinputs]
    rfl
  simp only [refreshDependency, hcopied, ρ.apply_eq_iff_eq, invokeIfPure_renumber]
  split <;> rfl

@[simp]
theorem refreshInputs_renumber (target : NodeId) :
    (r.renumber ρ next).refreshInputs (ρ target) = (r.refreshInputs target).renumber ρ next := by
  have hdependencies := r.graph.dependencies_renumber ρ next target
  rw [refreshInputs, refreshInputs,
    ← foldl_renumber ρ next r fun r id => r.refreshDependency_renumber ρ next target id,
    ← hdependencies]
  rfl

end Run

end FlowGraph
