import FlowGraph.Proofs.Settling
import Mathlib.Data.List.Perm.Basic

/-!
# The order in which connections were made

The data order of a graph depends on the order in which its connections were made.  What a
refresh leaves at a node does not: it is computed from what is left at the sources of the
node, and the values that come into a node come into different slots.  So graphs that have
the same nodes and the same links, made in whatever order, are left alike, by induction
along the data connections.
-/

namespace FlowGraph

/-! ## Values coming in -/

namespace Memory

/-- It does not matter in which order values come into different slots. -/
theorem receive_comm {pin other : Nat} (hne : pin ≠ other) (m : Memory) (v w : Option Value) :
    (m.receive pin v).receive other w = (m.receive other w).receive pin v := by
  cases v with
  | none => rfl
  | some v =>
    cases w with
    | none => rfl
    | some w =>
      have hinputs : (m.inputs.set pin v).set other w = (m.inputs.set other w).set pin v := by
        apply Store.ext_get?
        intro key
        simp only [Store.get?_set]
        by_cases hkey : key = pin
        · simp [hkey, hne]
        · simp [hkey]
      simp only [receive, hinputs]

/-- Connections into different slots bring the same when they are taken in another order. -/
theorem receiveAll_perm {connections connections' : List Connection}
    (hdistinct : connections.Pairwise fun a b => a.targetPin ≠ b.targetPin)
    (hperm : (connections.map Connection.toLink).Perm (connections'.map Connection.toLink))
    (m : Memory) (deliver : Link → Option Value) :
    m.receiveAll deliver connections = m.receiveAll deliver connections' := by
  have hlinks : ∀ connections : List Connection, m.receiveAll deliver connections =
      (connections.map Connection.toLink).foldl
        (fun m l => m.receive l.targetPin (deliver l)) m := by
    intro connections
    rw [List.foldl_map]
    rfl
  have hsymm : Std.Symm fun a b : Link => a.targetPin ≠ b.targetPin := ⟨fun _ _ => Ne.symm⟩
  have hapart : (connections.map Connection.toLink).Pairwise fun a b =>
      a.targetPin ≠ b.targetPin :=
    List.pairwise_map.2 hdistinct
  rw [hlinks, hlinks]
  apply hperm.foldl_eq'
  intro a ha b hb m
  by_cases hsame : a = b
  · rw [hsame]
  · exact receive_comm (hapart.forall ha hb hsame) m _ _

end Memory

namespace Graph

/-- The graphs have the same nodes, and the same links in some order. -/
structure Rearranged (g g' : Graph) : Prop where
  nodes : ∀ id, g.node? id = g'.node? id
  links : (g.connections.rows.map Connection.toLink).Perm
    (g'.connections.rows.map Connection.toLink)

variable {g g' : Graph} {pureOnly : Bool}

namespace Rearranged

/-! ## What does not depend on the order -/

section

variable (h : g.Rearranged g')

include h

theorem hasNode_eq (id : NodeId) : g.hasNode id = g'.hasNode id := by
  rw [hasNode, h.nodes, hasNode]

theorem isPure_eq (id : NodeId) : g.isPure id = g'.isPure id := by
  rw [isPure, h.nodes, isPure]

theorem memory?_eq (id : NodeId) : g.memory? id = g'.memory? id := by
  rw [memory?, h.nodes, memory?]

theorem react_eq (id : NodeId) : g.react id = g'.react id := by
  funext m
  rw [react, h.nodes, react]

theorem sourcePin?_eq (l : Link) : g.sourcePin? l = g'.sourcePin? l := by
  rw [sourcePin?, h.nodes, sourcePin?]

theorem targetPin?_eq (l : Link) : g.targetPin? l = g'.targetPin? l := by
  rw [targetPin?, h.nodes, targetPin?]

theorem carriesData_eq (l : Link) : g.carriesData l = g'.carriesData l := by
  rw [carriesData, h.sourcePin?_eq, carriesData]

theorem perm_nodeIds : g.nodeIds.Perm g'.nodeIds := by
  apply (List.perm_ext_iff_of_nodup g.nodes.nodup_keys g'.nodes.nodup_keys).2
  intro id
  constructor
  · intro hid
    apply mem_nodeIds_of_hasNode
    rw [← h.hasNode_eq]
    exact hasNode_of_mem_nodeIds hid
  · intro hid
    apply mem_nodeIds_of_hasNode
    rw [h.hasNode_eq]
    exact hasNode_of_mem_nodeIds hid

/-- A choice of connections by their links finds the same links. -/
theorem perm_filter (p : Link → Bool) :
    ((g.connections.rows.filter fun c => p c.toLink).map Connection.toLink).Perm
      ((g'.connections.rows.filter fun c => p c.toLink).map Connection.toLink) := by
  have hmap : ∀ rows : List Connection, (rows.filter fun c => p c.toLink).map Connection.toLink =
      (rows.map Connection.toLink).filter p := by
    intro rows
    rw [List.filter_map]
    rfl
  rw [hmap, hmap]
  exact h.links.filter p

theorem feedsData_eq (id : NodeId) : g.feedsData id = g'.feedsData id := by
  have hany : ∀ g : Graph, g.feedsData id =
      (g.connections.rows.map Connection.toLink).any fun l =>
        l.source == id && g.carriesData l := by
    intro g
    rw [List.any_map]
    rfl
  rw [hany, hany, h.links.any_eq]
  simp only [h.carriesData_eq]

/-- Whether the connections keep all rules is decided by their links. -/
theorem wellFormed (hwf : g.WellFormed) : g'.WellFormed := by
  have hlink : ∀ c ∈ g'.connections.rows, ∃ d ∈ g.connections.rows, d.toLink = c.toLink := by
    intro c hc
    exact List.mem_map.1 (h.links.mem_iff.2 (List.mem_map_of_mem hc))
  have hsymm : ∀ {a b : Link}, ¬ a.Meets b → ¬ b.Meets a := by
    intro a b hapart hmeets
    exact hapart ⟨hmeets.1.symm, hmeets.2.symm⟩
  constructor
  · intro c hc
    obtain ⟨d, hd, hsame⟩ := hlink c hc
    have hfits := hwf.fits d hd
    rw [hsame, Fits, h.sourcePin?_eq, h.targetPin?_eq] at hfits
    exact hfits
  · have hfanIn : (g.connections.rows.map Connection.toLink).Pairwise fun a b => ¬ a.Meets b :=
      List.pairwise_map.2 hwf.fanIn
    exact List.pairwise_map.1 ((h.links.pairwise_iff hsymm).1 hfanIn)
  · apply hwf.acyclic.mono
    intro e he
    obtain ⟨c, hc, rfl⟩ := List.mem_map.1 he
    obtain ⟨d, hd, hsame⟩ := hlink c hc
    have hedge := Connection.mem_edges hd
    rw [hsame] at hedge
    exact hedge

theorem perm_refreshed (pureOnly : Bool) :
    ((g.refreshed pureOnly).map Connection.toLink).Perm
      ((g'.refreshed pureOnly).map Connection.toLink) := by
  simp only [refreshed, h.carriesData_eq, h.isPure_eq]
  exact h.perm_filter fun l => g'.carriesData l && (!pureOnly || g'.isPure l.source)

theorem perm_inputs (pureOnly : Bool) (id : NodeId) :
    (((g.sweepPlan pureOnly).inputs id).map Connection.toLink).Perm
      (((g'.sweepPlan pureOnly).inputs id).map Connection.toLink) := by
  simp only [sweepPlan, refreshed, List.filter_filter, h.carriesData_eq, h.isPure_eq]
  exact h.perm_filter fun l =>
    l.target == id && (g'.carriesData l && (!pureOnly || g'.isPure l.source))

theorem invokes_eq (pureOnly : Bool) (id : NodeId) :
    (g.sweepPlan pureOnly).invokes id = (g'.sweepPlan pureOnly).invokes id := by
  simp only [sweepPlan, h.isPure_eq, h.feedsData_eq]

/-- Graphs that come of the two and offer the same at the source of a link bring the same along
it. -/
theorem delivery?_eq {final final' : Graph} {l : Link} (hskeleton : final.skeleton = g.skeleton)
    (hskeleton' : final'.skeleton = g'.skeleton)
    (houtputs : (final.memory? l.source).map Memory.outputs =
      (final'.memory? l.source).map Memory.outputs) :
    final.delivery? l = final'.delivery? l := by
  rw [delivery?, delivery?, targetPin?_of_skeleton hskeleton, targetPin?_of_skeleton hskeleton',
    h.targetPin?_eq, sourceValue?_congr houtputs]

/-- The turn of a node makes the same of it if the same comes along the same links. -/
theorem next_eq {plan plan' : Plan} {final final' : Graph} {id : NodeId}
    (hskeleton : final.skeleton = g.skeleton) (hskeleton' : final'.skeleton = g'.skeleton)
    (hinvokes : plan.invokes id = plan'.invokes id)
    (hdistinct : (plan.inputs id).Pairwise fun a b => a.targetPin ≠ b.targetPin)
    (hinputs : ((plan.inputs id).map Connection.toLink).Perm
      ((plan'.inputs id).map Connection.toLink))
    (hdelivery : ∀ c ∈ plan.inputs id, final.delivery? c.toLink = final'.delivery? c.toLink) :
    plan.next final id = plan'.next final' id := by
  funext m
  rw [Plan.next, Plan.next, Memory.receiveAll_congr hdelivery,
    Memory.receiveAll_perm hdistinct hinputs, hinvokes, react_of_skeleton hskeleton, h.react_eq,
    react_of_skeleton hskeleton']

theorem length_refreshers : g.refreshers.length = g'.refreshers.length := by
  simp only [refreshers, h.isPure_eq, h.feedsData_eq]
  exact (h.perm_nodeIds.filter _).length_eq

end

/-! ## What a refresh leaves -/

section

variable (h : g.Rearranged g') (hwf : g.WellFormed) (hcurrent : g.OrderCurrent)
  (hcurrent' : g'.OrderCurrent)

include h hwf hcurrent hcurrent'

/-- A refresh leaves the same at each node, by induction along the data connections. -/
theorem memory?_sweep_eq (pureOnly : Bool) (id : NodeId) :
    (g.sweep pureOnly).graph.memory? id = (g'.sweep pureOnly).graph.memory? id := by
  induction id using hwf.feeds_wellFounded.induction with
  | _ id ih =>
    have hskeleton := skeleton_sweep g pureOnly
    have hskeleton' := skeleton_sweep g' pureOnly
    have hdelivery : ∀ c ∈ (g.sweepPlan pureOnly).inputs id,
        (g.sweep pureOnly).graph.delivery? c.toLink =
          (g'.sweep pureOnly).graph.delivery? c.toLink := by
      intro c hc
      rw [inputs_sweepPlan] at hc
      have hfeeds : g.Feeds c.source id := feeds_iff.2 ⟨c, (List.mem_filter.1 hc).1, rfl⟩
      apply h.delivery?_eq hskeleton hskeleton'
      rw [ih c.source hfeeds]
    have hnext := h.next_eq hskeleton hskeleton' (h.invokes_eq pureOnly id)
      (hwf.pairwise_inputs pureOnly id) (h.perm_inputs pureOnly id) hdelivery
    rw [hwf.memory?_sweep hcurrent, (h.wellFormed hwf).memory?_sweep hcurrent', h.memory?_eq, hnext]

/-- It counts as many invocations and copies. -/
theorem stats_sweep_eq (pureOnly : Bool) :
    (g.sweep pureOnly).stats = (g'.sweep pureOnly).stats := by
  have hsource : ∀ l, (g.sweep pureOnly).graph.sourceValue? l =
      (g'.sweep pureOnly).graph.sourceValue? l := by
    intro l
    rw [sourceValue?, h.memory?_sweep_eq hwf hcurrent hcurrent', sourceValue?]
  have hcopied : ((g.refreshed pureOnly).filter fun c =>
        ((g.sweep pureOnly).graph.sourceValue? c.toLink).isSome).length =
      ((g'.refreshed pureOnly).filter fun c =>
        ((g'.sweep pureOnly).graph.sourceValue? c.toLink).isSome).length := by
    have hcount : ∀ (rows : List Connection) (p : Link → Bool),
        (rows.filter fun c => p c.toLink).length = (rows.map Connection.toLink).countP p := by
      intro rows p
      rw [List.countP_map, List.countP_eq_length_filter]
      rfl
    simp only [hsource]
    rw [hcount _ fun l => ((g'.sweep pureOnly).graph.sourceValue? l).isSome,
      hcount _ fun l => ((g'.sweep pureOnly).graph.sourceValue? l).isSome,
      (h.perm_refreshed pureOnly).countP_eq]
  rw [hwf.counted_sweep hcurrent, (h.wellFormed hwf).counted_sweep hcurrent',
    h.length_refreshers, hcopied]

end

end Rearranged

/-- In two graphs with the same nodes and the same links, made in whatever order, both
refreshes leave the same inputs, outputs and locals at every node and count as many
invocations and copies.  The behaviors may have a state.  That the known order is current is
no restriction on graphs that arise from operations. -/
theorem insertion_order_makes_no_difference (h : g.Rearranged g') (hwf : g.WellFormed)
    (hcurrent : g.OrderCurrent) (hcurrent' : g'.OrderCurrent) :
    ((∀ id, g.refreshPure.graph.memory? id = g'.refreshPure.graph.memory? id) ∧
        g.refreshPure.stats = g'.refreshPure.stats) ∧
      (∀ id, g.refreshAll.graph.memory? id = g'.refreshAll.graph.memory? id) ∧
        g.refreshAll.stats = g'.refreshAll.stats := by
  constructor
  · constructor
    · exact h.memory?_sweep_eq hwf hcurrent hcurrent' true
    · exact h.stats_sweep_eq hwf hcurrent hcurrent' true
  · constructor
    · exact h.memory?_sweep_eq hwf hcurrent hcurrent' false
    · exact h.stats_sweep_eq hwf hcurrent hcurrent' false

/-- A graph to look at: a number goes to two nodes, each of which answers with the number that
came in the time before, and on from there to a display.  Its connections are restored in a
given order. -/
def delaying (connections : List Connection) : Graph :=
  let delay : NodeSpec :=
    { title := "Delay"
      inputs := [.data "In" (.int 0)]
      outputs := [.data "Out" (.int 0)]
      behavior := some fun _ _ m =>
        ({ m with
            outputs := m.outputs.set 0 ((m.locals.get? "kept").getD (.int 0))
            locals := m.locals.set "kept" ((m.inputs.get? 0).getD (.int 0)) }, []) }
  ([Operation.addNode { title := "Number", outputs := [.data "Value" (.int 5)] },
    .addNode delay,
    .addNode delay,
    .addNode
      { title := "Display", inputs := [.data "Left" (.int 1), .data "Right" (.int 1)] }] ++
    connections.map Operation.restore).foldl Operation.apply {}

/-- The connections of that graph. -/
def fork : List Connection :=
  [⟨⟨⟨0⟩, 0, ⟨1⟩, 0⟩, ⟨0⟩⟩, ⟨⟨⟨0⟩, 0, ⟨2⟩, 0⟩, ⟨1⟩⟩,
    ⟨⟨⟨1⟩, 0, ⟨3⟩, 0⟩, ⟨2⟩⟩, ⟨⟨⟨2⟩, 0, ⟨3⟩, 1⟩, ⟨3⟩⟩]

/-- When the connections are restored in the opposite order, the nodes that answer late are
refreshed in the opposite order, and the display shows the same. -/
theorem insertion_order_makes_no_difference_delaying :
    (delaying fork).dataOrder = [⟨0⟩, ⟨1⟩, ⟨2⟩, ⟨3⟩] ∧
      (delaying fork.reverse).dataOrder = [⟨0⟩, ⟨2⟩, ⟨1⟩, ⟨3⟩] ∧
      (delaying fork).refreshAll.graph.memory? ⟨3⟩ =
        (delaying fork.reverse).refreshAll.graph.memory? ⟨3⟩ ∧
      (delaying fork).refreshAll.stats = { invoked := 3, copied := 4 } ∧
      (delaying fork.reverse).refreshAll.stats = { invoked := 3, copied := 4 } := by
  have hrearranged : (delaying fork).Rearranged (delaying fork.reverse) :=
    ⟨fun _ => rfl, by decide⟩
  have hcurrent : (delaying fork).OrderCurrent := by
    intro order horder
    cases horder
  have hcurrent' : (delaying fork.reverse).OrderCurrent := by
    intro order horder
    cases horder
  obtain ⟨-, hmemory, hstats⟩ :=
    insertion_order_makes_no_difference hrearranged (by decide) hcurrent hcurrent'
  have hcounted : (delaying fork).refreshAll.stats = { invoked := 3, copied := 4 } := by decide
  exact ⟨by decide, by decide, hmemory ⟨3⟩, hcounted, hstats.symm.trans hcounted⟩

end Graph

end FlowGraph
