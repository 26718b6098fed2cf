import FlowGraph.Proofs.Cleanup
import FlowGraph.Proofs.Invariant
import FlowGraph.Proofs.Nesting
import FlowGraph.Proofs.Tally

/-!
# No node is marked between two calls

A call that executes marks nodes and takes the marks away again, as the graph is well formed; no
other call marks a node.  As long as no connection is stored unchecked, the graph stays well
formed, and so no node is marked between any two calls.
-/

namespace FlowGraph

open Execution

namespace Graph

variable {g g' : Graph} {id : NodeId}

theorem unmarked_empty (name : String) (settings : Settings) :
    ({ name := name, settings := settings } : Graph).Unmarked := fun _ => nofun

theorem Unmarked.of_active? (h : g.Unmarked) (hmarks : ∀ id, g'.active? id = g.active? id) :
    g'.Unmarked := by
  intro id
  rw [hmarks]
  exact h id

theorem Unmarked.of_changes (h : g.Unmarked)
    (hchanges : Changes (fun deed => ∀ id, deed ≠ .mark id) g g') : g'.Unmarked :=
  h.of_active? fun id => hchanges.active?_eq_of_not_mark fun hmay => hmay id rfl

/-- Nothing that leaves nodes out marks one. -/
theorem Unmarked.of_leaves {taken : Connection → Bool} {gone : NodeId → Bool} (h : g.Unmarked)
    (hleaves : g.Leaves taken gone g') : g'.Unmarked := by
  intro id hactive
  obtain ⟨n', hn', hmarked⟩ := Option.map_eq_some_iff.1 hactive
  obtain ⟨n, hn, hrelieved⟩ := hleaves.exists_node? hn'
  rw [hrelieved.same] at hmarked
  apply h id
  rw [active?, hn, Option.map_some, hmarked]

/-- A new node is not marked. -/
theorem Unmarked.addNode (h : g.Unmarked) (spec : NodeSpec) : (g.addNode spec).graph.Unmarked := by
  rw [Graph.addNode]
  dsimp only
  split
  next => exact h
  next node hnode =>
    have hnew : node.active = false := by
      rw [Node.eq_build_of_ofSpec hnode]
      rfl
    intro id hactive
    obtain ⟨n, hn, hmarked⟩ := Option.map_eq_some_iff.1 hactive
    rw [node?, Table.find?_put] at hn
    split at hn
    · cases hn
      rw [hnew] at hmarked
      cases hmarked
    · apply h id
      rw [active?, node?, hn, Option.map_some, hmarked]

theorem Unmarked.sweep (h : g.Unmarked) (pureOnly : Bool) : (g.sweep pureOnly).graph.Unmarked :=
  h.of_changes (changes_sweep (fun _ _ _ _ => nofun) pureOnly)

theorem Unmarked.refreshConnection {r : Run} (h : r.graph.Unmarked) (id : ConnectionId) :
    (r.refreshConnection id).graph.Unmarked :=
  h.of_changes (Run.changes_refreshConnection (fun _ _ _ _ => nofun) id)

theorem Unmarked.refreshInputs {r : Run} (h : r.graph.Unmarked) (target : NodeId) :
    (r.refreshInputs target).graph.Unmarked :=
  h.of_changes (Run.changes_refreshInputs r fun _ _ _ _ => nofun)

theorem Unmarked.connect (h : g.Unmarked) (id : ConnectionId) (l : Link) :
    (g.connect id l).graph.Unmarked := by
  rw [Graph.connect]
  split
  next => exact h
  next =>
    have hstored : (g.restore { toLink := l, id := id }).Unmarked := h
    exact Unmarked.refreshConnection hstored id

theorem Unmarked.removeNode (h : g.Unmarked) (id : NodeId) : (g.removeNode id).graph.Unmarked := by
  cases hlive : g.hasNode id with
  | true => exact h.of_leaves (leaves_removeNode hlive)
  | false =>
    rw [Graph.removeNode, if_neg (ne_true_of_eq_false hlive)]
    exact h

theorem Unmarked.execute (h : g.Unmarked) (hwf : g.WellFormed) (start : NodeId) :
    (g.execute start).graph.Unmarked := by
  rw [Graph.execute]
  split
  next run hrun => exact Unmarked.of_execute (r := { graph := g }) h hwf hrun
  next => exact h

theorem Unmarked.fire (h : g.Unmarked) (hwf : g.WellFormed) (title : String) :
    (g.fire title).graph.Unmarked := by
  have hkept : (g.fire title).graph.Unmarked ∧ (g.fire title).graph.WellFormed := by
    apply fire_induction (P := fun g' => g'.Unmarked ∧ g'.WellFormed) title ⟨h, hwf⟩
    · exact ⟨h.sweep false, hwf.of_skeleton (skeleton_sweep g false)⟩
    · intro r out start hr hrun
      exact ⟨hr.1.of_execute hr.2 hrun, hr.2.of_skeleton (Run.skeleton_execute hrun)⟩
  exact hkept.1

theorem Unmarked.perform (h : g.Unmarked) (hwf : g.WellFormed) (command : Command) :
    (g.perform command).graph.Unmarked := by
  cases command with
  | refreshPure => exact h.sweep true
  | refreshAll => exact h.sweep false
  | refreshConnection id => exact Unmarked.refreshConnection (r := { graph := g }) h id
  | refreshInputs node =>
    rw [Graph.perform]
    split
    · exact Unmarked.refreshInputs (r := { graph := g }) h node
    · exact h
  | execute node => exact h.execute hwf node

/-- One step: no call on a well-formed graph leaves a node marked. -/
theorem Unmarked.apply (h : g.Unmarked) (hwf : g.WellFormed) (operation : Operation) :
    (operation.apply g).Unmarked := by
  cases operation with
  | addNode spec => exact h.addNode spec
  | spawn catalog key =>
    rw [Operation.apply, Catalog.spawn]
    split
    · exact h
    · exact h.addNode _
  | connect id l => exact h.connect id l
  | restore c => exact h
  | disconnect id => exact h.of_leaves (leaves_disconnect g id)
  | disconnectNode node => exact h.of_leaves (leaves_disconnectWhere g _)
  | disconnectPin node pin side => exact h.of_leaves (leaves_disconnectWhere g _)
  | removeNode node => exact h.removeNode node
  | validate => exact h
  | cleanup => exact h.of_leaves (leaves_cleanup g)
  | knowOrder => exact h.of_changes (changes_knowOrder g)
  | refreshPure => exact h.sweep true
  | refreshAll => exact h.sweep false
  | refreshConnection id => exact Unmarked.refreshConnection (r := { graph := g }) h id
  | refreshInputs node => exact Unmarked.refreshInputs (r := { graph := g }) h node
  | perform command => exact h.perform hwf command
  | execute start => exact h.execute hwf start
  | fire title => exact h.fire hwf title
  | fireStart => exact h.fire hwf _
  | fireTick => exact h.fire hwf _
  | rename name => exact h
  | setSettings settings => exact h
  | setTitle node title => exact h.of_active? fun id => active?_modify g node id _ _ fun _ => rfl
  | setCategory node category =>
    exact h.of_active? fun id => active?_modify g node id _ _ fun _ => rfl
  | setInput node pin value => exact h.of_active? fun id => active?_setInput g node id pin value
  | setOutput node pin value => exact h.of_active? fun id => active?_setOutput g node id pin value
  | invoke node => exact h.of_active? fun id => Run.active?_invoke { graph := g } node id

/-- Without unchecked connections a graph stays regular, and none of its nodes is marked. -/
theorem unmarked_of_reachable (h : Reachable (fun _ operation => operation.Guarded) g) :
    g.Regular ∧ g.Unmarked := by
  induction h with
  | empty name settings => exact ⟨regular_empty name settings, unmarked_empty name settings⟩
  | step operation _ hguarded ih =>
    exact ⟨ih.1.apply hguarded, ih.2.apply ih.1.wellFormed operation⟩

/-- In a well-formed graph in which no node is marked, stack and marks belong together at every
step of every execution, and in the end no node is marked again.  So no node is ever marked
between two calls, as long as no connection is stored unchecked. -/
theorem marks_follow_stack :
    (∀ (g : Graph) (start : NodeId), g.WellFormed → g.Unmarked → g.hasNode start = true →
      (∀ steps, (Machine.step^[steps] (g.launch start)).Orderly start) ∧
      ∃ steps, (Machine.step^[steps] (g.launch start)).stack = [] ∧
        g.execute start = (Machine.step^[steps] (g.launch start)).run.answer (.ok ()) ∧
        (g.execute start).graph.Unmarked) ∧
    ∀ g : Graph, Reachable (fun _ operation => operation.Guarded) g → g.Unmarked := by
  refine ⟨fun g start hwf hunmarked hlive => ⟨fun steps => ?_, ?_⟩,
    fun g h => (unmarked_of_reachable h).2⟩
  · have hfirst : (g.launch start).Nests g start [] := nests_start hunmarked start
    obtain ⟨opened, hnests⟩ := hfirst.iterate_step hwf hlive steps
    exact hnests.orderly hwf hlive
  · obtain ⟨steps, -, r, hlast, -, hanswer⟩ := execution_ends hwf hlive
    have hrun : Machine.step^[steps] (g.launch start) = ⟨r, []⟩ := hlast
    refine ⟨steps, ?_, ?_, hunmarked.execute hwf start⟩
    · rw [hrun]
    · rw [hrun, hanswer]

/-- A node is reached in the inner of two loops: it is marked, and so are both loops and the
start, and both loops still have passes to make. -/
theorem marks_follow_stack_nested :
    Reachable (fun _ operation => operation.Guarded) nested ∧ nested.WellFormed ∧
      nested.Unmarked ∧
      (Machine.step^[6] (nested.launch ⟨0⟩)).stack =
        [.leave ⟨3⟩, .pass ⟨2⟩ 1 4, .leave ⟨2⟩, .pass ⟨1⟩ 1 3, .leave ⟨1⟩, .leave ⟨0⟩] ∧
      (Machine.step^[6] (nested.launch ⟨0⟩)).Orderly ⟨0⟩ ∧ (nested.execute ⟨0⟩).graph.Unmarked := by
  have hreachable : Reachable (fun _ operation => operation.Guarded) nested :=
    Reachable.foldl_apply (.empty _ _) fun _ => by simp [Operation.Guarded]
  have hwf : nested.WellFormed := by decide
  have hunmarked : nested.Unmarked := marks_follow_stack.2 nested hreachable
  obtain ⟨horderly, _, -, -, hunmarked'⟩ := marks_follow_stack.1 nested ⟨0⟩ hwf hunmarked rfl
  exact ⟨hreachable, hwf, hunmarked, by decide, horderly 6, hunmarked'⟩

end Graph

end FlowGraph
