import FlowGraph.Proofs.Admission
import FlowGraph.Proofs.Integrity
import FlowGraph.Proofs.Operation
import FlowGraph.Proofs.Removal

/-!
# Well-formedness along every run of operations

As long as no connection is stored unchecked, no order of calls leads to a graph that
breaks the rules.  The invariant says besides that the ids of nodes have been handed out,
so that a new node is not mistaken for the missing end of a connection.
-/

namespace FlowGraph

namespace Graph

variable {g g' : Graph} {l : Link}

/-- A well-formed graph whose node ids have all been handed out. -/
structure Regular (g : Graph) : Prop where
  wellFormed : g.WellFormed
  numbered : ∀ id, g.hasNode id = true → id.number < g.nextId

/-- A graph stays regular if connections are at most taken out, those that are left still
fit, no node appears and no number comes back. -/
theorem Regular.transfer (h : g.Regular)
    (hrows : g'.connections.rows.Sublist g.connections.rows)
    (hfits : ∀ c ∈ g'.connections.rows, g.Fits c.toLink → g'.Fits c.toLink)
    (hlive : ∀ id, g'.hasNode id = true → g.hasNode id = true)
    (hnext : g.nextId ≤ g'.nextId) : g'.Regular where
  wellFormed := (h.wellFormed.sublist hrows).transfer hfits
  numbered id hid := Nat.lt_of_lt_of_le (h.numbered id (hlive id hid)) hnext

theorem Regular.of_skeleton (h : g.Regular) (hskeleton : g'.skeleton = g.skeleton) :
    g'.Regular := by
  apply h.transfer
  · rw [connections_eq_of_skeleton hskeleton]
  · intro c _ hfits
    exact (fits_iff_of_skeleton hskeleton c.toLink).2 hfits
  · intro id hid
    rw [← hasNode_of_skeleton hskeleton id]
    exact hid
  · exact Nat.le_of_eq (nextId_eq_of_skeleton hskeleton).symm

theorem regular_empty (name : String) (settings : Settings) :
    ({ name := name, settings := settings } : Graph).Regular where
  wellFormed := sound_nil
  numbered id hid := by cases hid

/-- A link that fits keeps fitting as long as its two nodes keep their pins. -/
theorem Fits.congr (hfits : g.Fits l)
    (hsource : (g'.node? l.source).map Node.outputs = (g.node? l.source).map Node.outputs)
    (htarget : (g'.node? l.target).map Node.inputs = (g.node? l.target).map Node.inputs) :
    g'.Fits l := by
  rw [Fits, sourcePin?_congr hsource, targetPin?_congr htarget]
  exact hfits

/-! ## Nodes -/

theorem Regular.ne_next (h : g.Regular) {id : NodeId} (hlive : g.hasNode id = true) :
    id ≠ ⟨g.nextId⟩ := by
  intro heq
  have hlt := h.numbered id hlive
  rw [heq] at hlt
  exact Nat.lt_irrefl g.nextId hlt

theorem Node.id_of_ofSpec {id : NodeId} {spec : NodeSpec} {n : Node}
    (h : Node.ofSpec id spec = .ok n) : n.id = id := by
  rw [Node.eq_build_of_ofSpec h]
  rfl

/-- A new node gets an id that no connection names. -/
theorem Regular.addNode (h : g.Regular) (spec : NodeSpec) : (g.addNode spec).graph.Regular := by
  rw [Graph.addNode]
  dsimp only
  split
  next => exact h.transfer (.refl _) (fun _ _ hfits => hfits) (fun _ hid => hid) (Nat.le_succ _)
  next node hnode =>
    have hid : node.id = ⟨g.nextId⟩ := Node.id_of_ofSpec hnode
    have hfind : ∀ id, (g.nodes.put node).find? id =
        if id = ⟨g.nextId⟩ then some node else g.node? id := by
      intro id
      rw [Table.find?_put, hid]
      rfl
    constructor
    · apply h.wellFormed.transfer
      intro c _ hfits
      apply hfits.congr
      · rw [node?, hfind, if_neg (h.ne_next hfits.hasNode_source)]
      · rw [node?, hfind, if_neg (h.ne_next hfits.hasNode_target)]
    · intro id hlive
      by_cases hnew : id = ⟨g.nextId⟩
      · rw [hnew]
        exact Nat.lt_succ_self g.nextId
      · rw [hasNode, node?, hfind, if_neg hnew] at hlive
        exact Nat.lt_succ_of_lt (h.numbered id hlive)

/-- A change of one node that keeps its pins keeps a graph regular. -/
theorem Regular.modify (h : g.Regular) (id : NodeId) (f : Node → Node)
    (hid : ∀ n, (f n).id = n.id) (hinputs : ∀ n, (f n).inputs = n.inputs)
    (houtputs : ∀ n, (f n).outputs = n.outputs) :
    { g with nodes := g.nodes.modify id f hid }.Regular := by
  have hfind : ∀ other, (g.nodes.modify id f hid).find? other =
      if other = id then (g.node? other).map f else g.node? other :=
    fun other => Table.find?_modify g.nodes id other f hid
  have hinputs' : Node.inputs ∘ f = Node.inputs := by
    funext n
    exact hinputs n
  have houtputs' : Node.outputs ∘ f = Node.outputs := by
    funext n
    exact houtputs n
  apply h.transfer
  · exact .refl _
  · intro c _ hfits
    apply hfits.congr
    · rw [node?, hfind]
      split
      · rw [Option.map_map, houtputs']
      · rfl
    · rw [node?, hfind]
      split
      · rw [Option.map_map, hinputs']
      · rfl
  · intro other hlive
    rw [hasNode, node?, hfind] at hlive
    split at hlive
    · rw [Option.isSome_map] at hlive
      exact hlive
    · exact hlive
  · exact Nat.le_refl g.nextId

/-! ## Removals -/

theorem Regular.without (h : g.Regular) (p : Connection → Bool) : (g.without p).Regular :=
  h.transfer List.filter_sublist (fun _ _ hfits => hfits) (fun _ hid => hid) (Nat.le_refl _)

theorem Regular.disconnectWhere (h : g.Regular) (p : Connection → Bool) :
    (g.disconnectWhere p).graph.Regular :=
  (h.without p).of_skeleton (skeleton_disconnectWhere g p)

/-- With a node go all connections that name it. -/
theorem Regular.removeNode (h : g.Regular) (id : NodeId) : (g.removeNode id).graph.Regular := by
  rw [Graph.removeNode]
  split
  next =>
    have hremoval : (g.disconnectNode id).graph.Regular := h.disconnectWhere _
    have hfind : ∀ other, ((g.disconnectNode id).graph.nodes.erase id).find? other =
        if other = id then none else (g.disconnectNode id).graph.node? other :=
      fun other => Table.find?_erase (g.disconnectNode id).graph.nodes id other
    apply hremoval.transfer
    · exact .refl _
    · intro c hc hfits
      have hapart : c.source ≠ id ∧ c.target ≠ id := by
        have hkept : c ∈ (g.disconnectNode id).graph.connections.rows := hc
        rw [disconnectNode, rows_disconnectWhere] at hkept
        simpa [Link.involves] using (List.mem_filter.1 hkept).2
      apply hfits.congr
      · exact congrArg _ ((hfind c.source).trans (if_neg hapart.1))
      · exact congrArg _ ((hfind c.target).trans (if_neg hapart.2))
    · intro other hlive
      have hsome : (((g.disconnectNode id).graph.nodes.erase id).find? other).isSome = true := hlive
      rw [hfind] at hsome
      split at hsome
      · cases hsome
      · exact hsome
    · exact Nat.le_refl _
  next => exact h

/-! ## Connecting -/

theorem Regular.connect (h : g.Regular) (id : ConnectionId) (l : Link) :
    (g.connect id l).graph.Regular where
  wellFormed := h.wellFormed.connect id l
  numbered := by
    intro node hlive
    cases hcheck : g.check l with
    | error refusal =>
      rw [(connect_of_refused id hcheck).1] at hlive ⊢
      exact h.numbered node hlive
    | ok =>
      have hskeleton := (connect_of_admitted id hcheck).1
      rw [hasNode_of_skeleton hskeleton] at hlive
      rw [nextId_eq_of_skeleton hskeleton]
      exact h.numbered node hlive

/-! ## Runs of operations -/

/-- One step: no operation that stores nothing unchecked leads out of the regular graphs. -/
theorem Regular.apply (h : g.Regular) {operation : Operation} (hguarded : operation.Guarded) :
    (operation.apply g).Regular := by
  cases operation with
  | addNode spec => exact h.addNode spec
  | spawn catalog key =>
    rw [Operation.apply, Catalog.spawn]
    split
    · exact h
    · exact h.addNode _
  | connect id l => exact h.connect id l
  | restore c => cases hguarded
  | disconnect id => exact (h.without _).of_skeleton (skeleton_disconnect g id)
  | disconnectNode node => exact h.disconnectWhere _
  | disconnectPin node pin side => exact h.disconnectWhere _
  | removeNode node => exact h.removeNode node
  | validate => exact h
  | cleanup => exact (h.without _).of_skeleton (skeleton_cleanup g)
  | knowOrder => exact h.of_skeleton (skeleton_knowOrder g)
  | refreshPure => exact h.of_skeleton (skeleton_sweep g true)
  | refreshAll => exact h.of_skeleton (skeleton_sweep g false)
  | refreshConnection id => exact h.of_skeleton (Run.skeleton_refreshConnection _ id)
  | refreshInputs node => exact h.of_skeleton (Run.skeleton_refreshInputs _ node)
  | perform command => exact h.of_skeleton (skeleton_perform g command)
  | execute start => exact h.of_skeleton (skeleton_execute g start)
  | fire title => exact h.of_skeleton (skeleton_fire g title)
  | fireStart => exact h.of_skeleton (skeleton_fire g _)
  | fireTick => exact h.of_skeleton (skeleton_fire g _)
  | rename name =>
    exact h.transfer (.refl _) (fun _ _ hfits => hfits) (fun _ hid => hid) (Nat.le_refl _)
  | setSettings settings =>
    exact h.transfer (.refl _) (fun _ _ hfits => hfits) (fun _ hid => hid) (Nat.le_refl _)
  | setTitle node title => exact h.modify node _ _ (fun _ => rfl) fun _ => rfl
  | setCategory node category => exact h.modify node _ _ (fun _ => rfl) fun _ => rfl
  | setInput node pin value => exact h.of_skeleton (skeleton_setInput g node pin value)
  | setOutput node pin value => exact h.of_skeleton (skeleton_setOutput g node pin value)
  | invoke node => exact h.of_skeleton (Run.skeleton_invoke _ node)

theorem regular_of_reachable (h : Reachable Operation.Checked g) : g.Regular := by
  induction h with
  | empty name settings => exact regular_empty name settings
  | step operation _ hchecked ih => exact ih.apply hchecked.guarded

/-- Whatever checked operations are made on an empty graph, in whatever order, the graph
keeps all rules and nothing is ever reported. -/
theorem wellFormed_of_reachable (h : Reachable Operation.Checked g) :
    g.WellFormed ∧ g.violations = [] :=
  have hwf := (regular_of_reachable h).wellFormed
  ⟨hwf, violations_eq_nil_iff.2 hwf⟩

theorem reachable_counting : Reachable Operation.Checked counting := by
  apply Reachable.step (.setInput ⟨1⟩ 2 (.int 3)) _ trivial
  apply Reachable.step (.connect ⟨1⟩ ⟨⟨1⟩, 0, ⟨2⟩, 0⟩) _ rfl
  apply Reachable.step (.connect ⟨0⟩ ⟨⟨0⟩, 0, ⟨1⟩, 0⟩) _ rfl
  apply Reachable.step (.addNode (.branch "Choose")) _ trivial
  apply Reachable.step (.addNode (.countingLoop "Count")) _ trivial
  apply Reachable.step (.addNode { title := "On Start", outputs := [.exec] }) _ trivial
  exact Reachable.empty _ _

theorem wellFormed_of_reachable_counting :
    counting.connections.size = 2 ∧ counting.WellFormed ∧ counting.violations = [] :=
  ⟨by decide, wellFormed_of_reachable reachable_counting⟩

end Graph

end FlowGraph
