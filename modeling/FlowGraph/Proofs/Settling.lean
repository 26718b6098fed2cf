import FlowGraph.Proofs.DataOrder
import FlowGraph.Proofs.Integrity
import FlowGraph.Proofs.Pass
import Mathlib.Data.List.Pairwise

/-!
# A refresh settles the flow of data

A refresh of a whole graph is a pass in data order.  Every node has its turn after its
sources, so that what is copied into it is what its sources hold in the end.  As long as no
pure node writes its own inputs, each input then agrees with the output that it is
connected to.
-/

namespace FlowGraph

/-- The behavior of a node does not write the node's own inputs. -/
def Node.KeepsInputs (n : Node) : Prop :=
  ∀ m : Memory, (n.remember m).react.1.inputs = m.inputs

namespace Graph

/-- The data connections that are refreshed: all of them, or those that start at pure
nodes. -/
def refreshed (g : Graph) (pureOnly : Bool) : List Connection :=
  g.connections.rows.filter fun c =>
    g.carriesData c.toLink && (!pureOnly || g.isPure c.source)

/-- The pure nodes at which a data connection starts. -/
def refreshers (g : Graph) : List NodeId :=
  g.nodeIds.filter fun id => g.isPure id && g.feedsData id

/-- What a refresh does at each node. -/
def sweepPlan (g : Graph) (pureOnly : Bool) : Plan where
  inputs id := (g.refreshed pureOnly).filter fun c => c.target == id
  invokes id := g.isPure id && g.feedsData id

/-- What a refresh of a graph achieves, and how. -/
structure Settled (g : Graph) (pureOnly : Bool) (r : Run) : Prop where
  /-- At the target of a refreshed connection is what its source holds. -/
  settled : ∀ c ∈ g.refreshed pureOnly, ∀ value,
    r.graph.sourceValue? c.toLink = some value → r.graph.targetValue? c.toLink = some value
  /-- An input into which no refreshed connection brings a value keeps what it holds. -/
  spared : ∀ l : Link,
    (∀ c ∈ g.refreshed pureOnly, c.toLink.Meets l → r.graph.sourceValue? c.toLink = none) →
      r.graph.targetValue? l = g.targetValue? l
  /-- So does the input at the end of a data connection that is not refreshed. -/
  stale : ∀ c ∈ g.connections.rows, g.carriesData c.toLink = true → c ∉ g.refreshed pureOnly →
    r.graph.targetValue? c.toLink = g.targetValue? c.toLink
  /-- Outputs and locals change only at pure nodes that feed others. -/
  untouched : ∀ id ∉ g.refreshers,
    (r.graph.memory? id).map Memory.outputs = (g.memory? id).map Memory.outputs ∧
      (r.graph.memory? id).map Memory.locals = (g.memory? id).map Memory.locals
  /-- Those are invoked once each, and no other node is. -/
  once : ∀ id, r.moves.count (.invoked id) = if id ∈ g.refreshers then 1 else 0
  /-- A node is invoked when its inputs have been copied. -/
  copiedBefore : ∀ id ∈ g.refreshers, ∃ before after,
    r.moves = before ++ .invoked id :: after ∧
      ∀ c ∈ g.refreshed pureOnly, c.target = id →
        (.copied c.id ∈ before ↔ (r.graph.sourceValue? c.toLink).isSome) ∧
          .copied c.id ∉ after
  /-- The counts are those of the nodes and of the connections that bring a value. -/
  counted : r.stats =
    { invoked := g.refreshers.length
      copied := ((g.refreshed pureOnly).filter fun c =>
        (r.graph.sourceValue? c.toLink).isSome).length }

variable {g : Graph} {pureOnly : Bool} {id : NodeId} {c : Connection} {l : Link}

/-! ## The plan -/

theorem mem_refreshed_iff :
    c ∈ g.refreshed pureOnly ↔
      c ∈ g.connections.rows ∧ g.carriesData c.toLink = true ∧
        (pureOnly = true → g.isPure c.source = true) := by
  rw [refreshed, List.mem_filter, Bool.and_eq_true]
  cases pureOnly <;> simp

theorem apt_sweepPlan (g : Graph) (pureOnly : Bool) : (g.sweepPlan pureOnly).Apt g where
  target_eq _ _ hc := beq_iff_eq.1 (List.mem_filter.1 hc).2
  live _ hid := hasNode_of_isPure (Bool.and_eq_true_iff.1 hid).1

theorem inputs_sweepPlan (g : Graph) (pureOnly : Bool) (id : NodeId) :
    (g.sweepPlan pureOnly).inputs id =
      (g.dataInputs id).filter fun c => !pureOnly || g.isPure c.source := by
  rw [sweepPlan]
  simp only [refreshed, dataInputs, List.filter_filter]
  apply List.filter_congr
  intro c _
  cases c.target == id <;> cases g.carriesData c.toLink <;> simp

theorem inputs_sweepPlan_false (g : Graph) : (g.sweepPlan false).inputs = g.dataInputs := by
  funext id
  rw [inputs_sweepPlan]
  exact List.filter_eq_self.2 fun _ _ => rfl

theorem mem_refreshers_iff :
    id ∈ g.refreshers ↔ (g.sweepPlan pureOnly).invokes id = true := by
  rw [refreshers, List.mem_filter, sweepPlan]
  constructor
  · exact fun h => h.2
  · intro h
    exact ⟨mem_nodeIds_of_hasNode (hasNode_of_isPure (Bool.and_eq_true_iff.1 h).1), h⟩

theorem refreshNode_eq_settle {r : Run} (hr : r.graph.skeleton = g.skeleton) (id : NodeId) :
    r.refreshNode pureOnly id = r.settle (g.sweepPlan pureOnly) id := by
  have hcopied : ∀ connections, (r.copyAll connections).graph.skeleton = g.skeleton :=
    fun connections => (Run.skeleton_copyAll r connections).trans hr
  rw [Run.refreshNode, Run.settle, inputs_sweepPlan, dataInputs_of_skeleton hr]
  simp only [isPure_of_skeleton hr, feedsData_of_skeleton (hcopied _), Run.invokeIfPure,
    isPure_of_skeleton (hcopied _), sweepPlan]
  by_cases hpure : g.isPure id <;> by_cases hfeeds : g.feedsData id <;> simp [hpure, hfeeds]

theorem memory?_knowOrder (g : Graph) (id : NodeId) :
    g.knowOrder.graph.memory? id = g.memory? id := by
  rw [knowOrder]
  split <;> rfl

theorem moves_knowOrder (g : Graph) : g.knowOrder.toRun.moves = [] := by
  rw [knowOrder]
  split <;> rfl

/-- A refresh is a pass in data order. -/
theorem sweep_eq_pass (hcurrent : g.OrderCurrent) (pureOnly : Bool) :
    ∃ r, r = g.knowOrder.toRun.pass (g.sweepPlan pureOnly) g.dataOrder ∧
      g.sweep pureOnly = r.record (.swept r.stats pureOnly) := by
  refine ⟨_, rfl, ?_⟩
  rw [sweep, hcurrent.result_knowOrder]
  simp only [Run.foldl_eq_pass (fun _ id hr => refreshNode_eq_settle hr id) (skeleton_knowOrder g)]

theorem moves_record_swept (r : Run) (stats : Stats) (pureOnly : Bool) :
    (r.record (.swept stats pureOnly)).moves = r.moves := by
  simp [Run.moves, Run.events, Run.record, Event.isMove, Event.isInvocation, Event.isCopy]

/-- In data order every node has its turn after its sources. -/
theorem ready_sweepPlan {before after : List NodeId}
    (hsplit : g.dataOrder = before ++ id :: after) : (g.sweepPlan pureOnly).Ready id after := by
  apply Plan.Ready.of_before (hsplit ▸ g.nodup_dataOrder)
  intro c hc
  obtain ⟨hrefreshed, htarget⟩ := List.mem_filter.1 hc
  obtain ⟨hstored, hdata, -⟩ := mem_refreshed_iff.1 hrefreshed
  have hmem : id ∈ g.dataOrder := by simp [hsplit]
  have hlive : g.hasNode id = true := hasNode_of_mem_nodeIds (mem_nodeIds_of_mem_dataOrder hmem)
  exact mem_before_of_dataOrder hsplit hlive ⟨c, hstored, hdata, rfl, beq_iff_eq.1 htarget⟩

/-- What a refresh leaves at each node of the data order. -/
theorem memory?_sweep_of_mem (hcurrent : g.OrderCurrent) (hid : id ∈ g.dataOrder) :
    (g.sweep pureOnly).graph.memory? id =
      (g.memory? id).map ((g.sweepPlan pureOnly).next (g.sweep pureOnly).graph id) := by
  obtain ⟨r, hr, hsweep⟩ := sweep_eq_pass hcurrent pureOnly
  obtain ⟨before, after, hsplit⟩ := List.append_of_mem hid
  have hplan : (g.sweepPlan pureOnly).Apt g.knowOrder.graph :=
    (apt_sweepPlan g pureOnly).of_skeleton (skeleton_knowOrder g)
  rw [hsweep]
  change r.graph.memory? id = (g.memory? id).map ((g.sweepPlan pureOnly).next r.graph id)
  rw [hr, Run.memory?_pass hplan hsplit g.nodup_dataOrder (ready_sweepPlan hsplit),
    memory?_knowOrder]

/-- Where the data order does not lead, a refresh changes nothing. -/
theorem memory?_sweep_of_notMem (hcurrent : g.OrderCurrent) (hid : id ∉ g.dataOrder) :
    (g.sweep pureOnly).graph.memory? id = g.memory? id := by
  obtain ⟨r, hr, hsweep⟩ := sweep_eq_pass hcurrent pureOnly
  have hplan : (g.sweepPlan pureOnly).Apt g.knowOrder.graph :=
    (apt_sweepPlan g pureOnly).of_skeleton (skeleton_knowOrder g)
  rw [hsweep]
  change r.graph.memory? id = g.memory? id
  rw [hr, Run.memory?_pass_of_notMem hplan hid, memory?_knowOrder]

/-- In a well-formed graph no node is left out. -/
theorem WellFormed.memory?_sweep (hwf : g.WellFormed) (hcurrent : g.OrderCurrent)
    (pureOnly : Bool) (id : NodeId) :
    (g.sweep pureOnly).graph.memory? id =
      (g.memory? id).map ((g.sweepPlan pureOnly).next (g.sweep pureOnly).graph id) := by
  by_cases hlive : g.hasNode id = true
  · exact memory?_sweep_of_mem hcurrent
      (hwf.perm_dataOrder.mem_iff.2 (mem_nodeIds_of_hasNode hlive))
  · have hnone : ∀ g' : Graph, g'.skeleton = g.skeleton → g'.memory? id = none := by
      intro g' hskeleton
      rw [← Option.not_isSome_iff_eq_none, isSome_memory?, hasNode_of_skeleton hskeleton]
      exact hlive
    rw [hnone g rfl, hnone _ (skeleton_sweep g pureOnly)]
    rfl

/-- The copies and invocations of a refresh. -/
theorem moves_sweep (hcurrent : g.OrderCurrent) (pureOnly : Bool) :
    (g.sweep pureOnly).moves =
      g.dataOrder.flatMap ((g.sweepPlan pureOnly).moves (g.sweep pureOnly).graph) := by
  obtain ⟨r, hr, hsweep⟩ := sweep_eq_pass hcurrent pureOnly
  have hplan : (g.sweepPlan pureOnly).Apt g.knowOrder.graph :=
    (apt_sweepPlan g pureOnly).of_skeleton (skeleton_knowOrder g)
  have hswept : (g.sweep pureOnly).moves = r.moves := by rw [hsweep, moves_record_swept]
  rw [hswept, hr, Run.moves_pass hplan fun before id after => ready_sweepPlan, moves_knowOrder,
    List.nil_append, hsweep, hr]
  rfl

/-! ## Inputs -/

/-- No pure node writes its own inputs. -/
def PureKeepInputs (g : Graph) : Prop :=
  ∀ n ∈ g.nodes.rows, n.isPure = true → n.KeepsInputs

theorem PureKeepInputs.inputs_react (hkeeps : g.PureKeepInputs) (hpure : g.isPure id = true)
    (m : Memory) : (g.react id m).inputs = m.inputs := by
  rw [react]
  split
  next => rfl
  next n hn =>
    rw [isPure, hn] at hpure
    exact hkeeps n (Table.mem_of_find? hn) hpure m

theorem pureKeepInputs_iff :
    g.PureKeepInputs ↔ ∀ id, g.isPure id = true → ∀ m, (g.react id m).inputs = m.inputs := by
  constructor
  · exact fun hkeeps id hpure => hkeeps.inputs_react hpure
  · intro h n hn hpure m
    have hfind : g.node? n.id = some n := Table.find?_key_iff.2 hn
    have hinputs := h n.id (by rw [isPure, hfind]; exact hpure) m
    rw [react, hfind] at hinputs
    exact hinputs

/-- It depends on the nodes alone. -/
theorem PureKeepInputs.of_skeleton {g' : Graph} (hkeeps : g.PureKeepInputs)
    (hskeleton : g'.skeleton = g.skeleton) : g'.PureKeepInputs := by
  apply pureKeepInputs_iff.2
  intro id hpure m
  rw [isPure_of_skeleton hskeleton] at hpure
  rw [react_of_skeleton hskeleton, hkeeps.inputs_react hpure]

theorem PureKeepInputs.inputs_next (hkeeps : g.PureKeepInputs) {g' : Graph}
    (hskeleton : g'.skeleton = g.skeleton) (id : NodeId) (m : Memory) :
    ((g.sweepPlan pureOnly).next g' id m).inputs =
      (m.receiveAll g'.delivery? ((g.sweepPlan pureOnly).inputs id)).inputs := by
  rw [Plan.next]
  split
  next hinvokes =>
    rw [react_of_skeleton hskeleton]
    exact hkeeps.inputs_react (Bool.and_eq_true_iff.1 hinvokes).1 _
  next => rfl

/-- What a refresh leaves in an input. -/
theorem WellFormed.targetValue?_sweep (hwf : g.WellFormed) (hcurrent : g.OrderCurrent)
    (hkeeps : g.PureKeepInputs) (pureOnly : Bool) (l : Link) :
    (g.sweep pureOnly).graph.targetValue? l = (g.memory? l.target).bind fun m =>
      (m.receiveAll (g.sweep pureOnly).graph.delivery?
        ((g.sweepPlan pureOnly).inputs l.target)).inputs.get? l.targetPin := by
  rw [targetValue?, hwf.memory?_sweep hcurrent, Option.bind_map]
  congr 1
  funext m
  rw [Function.comp_apply, hkeeps.inputs_next (skeleton_sweep g pureOnly)]

theorem WellFormed.delivery?_eq_of_mem (hwf : g.WellFormed) {g' : Graph}
    (hskeleton : g'.skeleton = g.skeleton) (hc : c ∈ g.connections.rows) :
    g'.delivery? c.toLink = g'.sourceValue? c.toLink :=
  ((fits_iff_of_skeleton hskeleton c.toLink).2 (hwf.fits c hc)).delivery?_eq

theorem WellFormed.eq_of_meets (hwf : g.WellFormed) {c d : Connection}
    (hc : c ∈ g.connections.rows) (hd : d ∈ g.connections.rows) (hmeets : c.toLink.Meets d.toLink) :
    c = d := by
  have hsymm : Std.Symm fun a b : Connection => ¬ a.toLink.Meets b.toLink := by
    constructor
    intro a b h hback
    exact h ⟨hback.1.symm, hback.2.symm⟩
  by_contra hne
  exact hwf.fanIn.forall hc hd hne hmeets

/-- The connections that are copied into one node enter different inputs of it. -/
theorem WellFormed.pairwise_inputs (hwf : g.WellFormed) (pureOnly : Bool) (id : NodeId) :
    ((g.sweepPlan pureOnly).inputs id).Pairwise fun a b => a.targetPin ≠ b.targetPin := by
  have hsub : ((g.sweepPlan pureOnly).inputs id).Sublist g.connections.rows :=
    List.filter_sublist.trans List.filter_sublist
  apply (hwf.fanIn.sublist hsub).imp_of_mem
  intro a b ha hb hapart hpin
  have hplan := apt_sweepPlan g pureOnly
  exact hapart ⟨(hplan.target_eq id a ha).trans (hplan.target_eq id b hb).symm, hpin⟩

theorem WellFormed.pairwise_dataInputs (hwf : g.WellFormed) (id : NodeId) :
    (g.dataInputs id).Pairwise fun a b => a.targetPin ≠ b.targetPin := by
  rw [← inputs_sweepPlan_false]
  exact hwf.pairwise_inputs false id

/-! ## The result -/

theorem length_flatMap_filter {α κ : Type} [DecidableEq κ] {f : α → κ} {keys : List κ}
    {l : List α} (hkeys : keys.Nodup) (hmem : ∀ a ∈ l, f a ∈ keys) :
    (keys.flatMap fun k => l.filter fun a => f a == k).length = l.length := by
  induction keys generalizing l with
  | nil =>
    rw [List.eq_nil_iff_forall_not_mem.2 fun a ha => List.not_mem_nil (hmem a ha)]
    rfl
  | cons k keys ih =>
    obtain ⟨hk, hkeys⟩ := List.nodup_cons.1 hkeys
    have hothers : (keys.flatMap fun j => l.filter fun a => f a == j) =
        keys.flatMap fun j => (l.filter fun a => !(f a == k)).filter fun a => f a == j := by
      apply List.flatMap_congr
      intro j hj
      rw [List.filter_filter]
      apply List.filter_congr
      intro a _
      cases haj : f a == j with
      | false => rfl
      | true =>
        have hne : f a ≠ k := by
          rintro rfl
          exact hk (beq_iff_eq.1 haj ▸ hj)
        rw [beq_eq_false_iff_ne.2 hne]
        rfl
    rw [List.flatMap_cons, List.length_append, hothers, ih hkeys,
      ← List.length_eq_length_filter_add]
    intro a ha
    obtain ⟨hal, hne⟩ := List.mem_filter.1 ha
    rw [Bool.not_eq_true', beq_eq_false_iff_ne] at hne
    exact (List.mem_cons.1 (hmem a hal)).resolve_left hne

theorem WellFormed.settled_sweep (hwf : g.WellFormed) (hcurrent : g.OrderCurrent)
    (hkeeps : g.PureKeepInputs) (hc : c ∈ g.refreshed pureOnly) {value : Value}
    (hvalue : (g.sweep pureOnly).graph.sourceValue? c.toLink = some value) :
    (g.sweep pureOnly).graph.targetValue? c.toLink = some value := by
  obtain ⟨hstored, -, -⟩ := mem_refreshed_iff.1 hc
  obtain ⟨m, hm⟩ := Option.isSome_iff_exists.1
    ((isSome_memory? g c.target).trans (hwf.hasNode_target hstored))
  have hinput : c ∈ (g.sweepPlan pureOnly).inputs c.target :=
    List.mem_filter.2 ⟨hc, beq_self_eq_true _⟩
  rw [hwf.targetValue?_sweep hcurrent hkeeps, hm, Option.bind_some]
  rw [Memory.get?_receiveAll_of_mem (hwf.pairwise_inputs pureOnly c.target) hinput,
    hwf.delivery?_eq_of_mem (skeleton_sweep g pureOnly) hstored, hvalue, Option.some_or]

theorem WellFormed.spared_sweep (hwf : g.WellFormed) (hcurrent : g.OrderCurrent)
    (hkeeps : g.PureKeepInputs) (hnone : ∀ c ∈ g.refreshed pureOnly, c.toLink.Meets l →
      (g.sweep pureOnly).graph.sourceValue? c.toLink = none) :
    (g.sweep pureOnly).graph.targetValue? l = g.targetValue? l := by
  rw [hwf.targetValue?_sweep hcurrent hkeeps, targetValue?]
  congr 1
  funext m
  apply Memory.get?_receiveAll_of_none
  intro c hc hpin
  obtain ⟨hrefreshed, htarget⟩ := List.mem_filter.1 hc
  rw [hwf.delivery?_eq_of_mem (skeleton_sweep g pureOnly) (mem_refreshed_iff.1 hrefreshed).1]
  exact hnone c hrefreshed ⟨beq_iff_eq.1 htarget, hpin⟩

theorem WellFormed.untouched_sweep (hwf : g.WellFormed) (hcurrent : g.OrderCurrent)
    (hid : id ∉ g.refreshers) :
    ((g.sweep pureOnly).graph.memory? id).map Memory.outputs =
        (g.memory? id).map Memory.outputs ∧
      ((g.sweep pureOnly).graph.memory? id).map Memory.locals =
        (g.memory? id).map Memory.locals := by
  have hinvokes : (g.sweepPlan pureOnly).invokes id = false := by
    rw [← Bool.not_eq_true, ← mem_refreshers_iff]
    exact hid
  rw [hwf.memory?_sweep hcurrent, Option.map_map, Option.map_map]
  constructor <;> congr 1 <;> funext m
  · exact (Run.outputs_next_of_not_invoked hinvokes _ m).1
  · exact (Run.outputs_next_of_not_invoked hinvokes _ m).2

theorem WellFormed.copiedBefore_sweep (hwf : g.WellFormed) (hcurrent : g.OrderCurrent)
    (hid : id ∈ g.refreshers) :
    ∃ before after, (g.sweep pureOnly).moves = before ++ .invoked id :: after ∧
      ∀ c ∈ g.refreshed pureOnly, c.target = id →
        (.copied c.id ∈ before ↔ ((g.sweep pureOnly).graph.sourceValue? c.toLink).isSome) ∧
          .copied c.id ∉ after := by
  obtain ⟨r, hr, hsweep⟩ := sweep_eq_pass hcurrent pureOnly
  obtain ⟨earlier, later, hsplit⟩ := List.append_of_mem
    (hwf.perm_dataOrder.mem_iff.2 (List.mem_filter.1 hid).1)
  have hplan : (g.sweepPlan pureOnly).Apt g.knowOrder.graph :=
    (apt_sweepPlan g pureOnly).of_skeleton (skeleton_knowOrder g)
  have hstored : ∀ other, ∀ c ∈ (g.sweepPlan pureOnly).inputs other, c ∈ g.connections.rows :=
    fun other c hc => (mem_refreshed_iff.1 (List.mem_filter.1 hc).1).1
  obtain ⟨before, after, hmoves, hcopied⟩ := Run.copied_before_invoked hplan (moves_knowOrder g)
    hsplit g.nodup_dataOrder (ready_sweepPlan hsplit) (mem_refreshers_iff.1 hid)
    fun other c hc d hd =>
      Table.eq_of_key_eq g.connections.distinct (hstored other d hd) (hstored id c hc)
  rw [← hr] at hmoves hcopied
  refine ⟨before, after, ?_, ?_⟩
  · rw [hsweep, moves_record_swept, hmoves]
  · intro c hc htarget
    have hinput : c ∈ (g.sweepPlan pureOnly).inputs id :=
      List.mem_filter.2 ⟨hc, beq_iff_eq.2 htarget⟩
    rw [← hwf.delivery?_eq_of_mem (skeleton_sweep g pureOnly) (mem_refreshed_iff.1 hc).1, hsweep]
    exact hcopied c hinput

theorem WellFormed.counted_sweep (hwf : g.WellFormed) (hcurrent : g.OrderCurrent)
    (pureOnly : Bool) :
    (g.sweep pureOnly).stats =
      { invoked := g.refreshers.length
        copied := ((g.refreshed pureOnly).filter fun c =>
          ((g.sweep pureOnly).graph.sourceValue? c.toLink).isSome).length } := by
  set final := (g.sweep pureOnly).graph with hfinal
  have hinvoked : g.dataOrder.countP (g.sweepPlan pureOnly).invokes = g.refreshers.length := by
    rw [hwf.perm_dataOrder.countP_eq, List.countP_eq_length_filter]
    rfl
  have hdelivered : ∀ id, (g.sweepPlan pureOnly).delivered final id =
      ((g.refreshed pureOnly).filter fun c => (final.sourceValue? c.toLink).isSome).filter
        fun c => c.target == id := by
    intro id
    rw [Plan.delivered, sweepPlan, List.filter_comm]
    congr 1
    apply List.filter_congr
    intro c hc
    rw [hwf.delivery?_eq_of_mem (skeleton_sweep g pureOnly) (mem_refreshed_iff.1 hc).1]
  have hcopied : (g.dataOrder.flatMap ((g.sweepPlan pureOnly).delivered final)).length =
      ((g.refreshed pureOnly).filter fun c => (final.sourceValue? c.toLink).isSome).length := by
    simp only [funext hdelivered]
    apply length_flatMap_filter g.nodup_dataOrder
    intro c hc
    have hstored := (mem_refreshed_iff.1 (List.mem_filter.1 hc).1).1
    exact hwf.perm_dataOrder.mem_iff.2 (mem_nodeIds_of_hasNode (hwf.hasNode_target hstored))
  rw [Run.stats_eq_ofEvents_moves, moves_sweep hcurrent, Stats.ofEvents,
    Plan.countP_isInvocation_moves, Plan.countP_isCopy_moves, hinvoked, ← hfinal, hcopied]

theorem WellFormed.once_sweep (hwf : g.WellFormed) (hcurrent : g.OrderCurrent) (pureOnly : Bool)
    (id : NodeId) :
    (g.sweep pureOnly).moves.count (.invoked id) = if id ∈ g.refreshers then 1 else 0 := by
  obtain ⟨r, hr, hsweep⟩ := sweep_eq_pass hcurrent pureOnly
  have hplan : (g.sweepPlan pureOnly).Apt g.knowOrder.graph :=
    (apt_sweepPlan g pureOnly).of_skeleton (skeleton_knowOrder g)
  rw [hsweep, moves_record_swept, hr, Run.count_invoked_pass hplan, moves_knowOrder,
    List.count_nil, Nat.zero_add]
  by_cases hid : id ∈ g.refreshers
  · have hmem : id ∈ g.dataOrder := hwf.perm_dataOrder.mem_iff.2 (List.mem_filter.1 hid).1
    rw [if_pos hid, if_pos (mem_refreshers_iff.1 hid),
      List.count_eq_one_of_mem g.nodup_dataOrder hmem]
  · rw [if_neg hid, if_neg (mt mem_refreshers_iff.2 hid)]

/-- What each of the two refreshes achieves. -/
theorem WellFormed.sweep_settled (hwf : g.WellFormed) (hcurrent : g.OrderCurrent)
    (hkeeps : g.PureKeepInputs) (pureOnly : Bool) : g.Settled pureOnly (g.sweep pureOnly) where
  settled _ hc _ hvalue := hwf.settled_sweep hcurrent hkeeps hc hvalue
  spared _ hnone := hwf.spared_sweep hcurrent hkeeps hnone
  stale c hc _ hstale := by
    apply hwf.spared_sweep hcurrent hkeeps
    intro d hd hmeets
    have hsame : d = c := hwf.eq_of_meets (mem_refreshed_iff.1 hd).1 hc hmeets
    exact absurd (hsame ▸ hd) hstale
  untouched _ hid := hwf.untouched_sweep hcurrent hid
  once id := hwf.once_sweep hcurrent pureOnly id
  copiedBefore _ hid := hwf.copiedBefore_sweep hcurrent hid
  counted := hwf.counted_sweep hcurrent pureOnly

/-- Both refreshes of a well-formed graph in which no pure node writes its own inputs settle
the flow of data, the one along all data connections and the other along those that start
at pure nodes.  That the known order is current is no restriction on graphs that arise from
operations. -/
theorem sweep_settles (hwf : g.WellFormed) (hcurrent : g.OrderCurrent)
    (hkeeps : g.PureKeepInputs) :
    g.Settled false g.refreshAll ∧ g.Settled true g.refreshPure :=
  ⟨hwf.sweep_settled hcurrent hkeeps false, hwf.sweep_settled hcurrent hkeeps true⟩

theorem pureKeepInputs_feeding : feeding.PureKeepInputs :=
  List.forall_iff_forall_mem.1 ⟨fun _ _ => rfl, fun _ _ => rfl, fun _ _ => rfl, fun _ _ => rfl⟩

theorem sweep_settles_feeding :
    feeding.WellFormed ∧ feeding.OrderCurrent ∧ feeding.PureKeepInputs ∧
      feeding.refreshAll.graph.targetValue? ⟨⟨2⟩, 2, ⟨3⟩, 0⟩ = some (.int 3) ∧
      feeding.refreshPure.graph.targetValue? ⟨⟨1⟩, 0, ⟨2⟩, 2⟩ = some (.int 7) ∧
      feeding.refreshPure.graph.targetValue? ⟨⟨2⟩, 2, ⟨3⟩, 0⟩ = some (.int 0) ∧
      feeding.refreshPure.stats = { invoked := 2, copied := 2 } := by
  have hwf : feeding.WellFormed := by decide
  have hcurrent : feeding.OrderCurrent := by
    intro order horder
    cases horder
  obtain ⟨hall, hpure⟩ := sweep_settles hwf hcurrent pureKeepInputs_feeding
  refine ⟨hwf, hcurrent, pureKeepInputs_feeding, ?_, ?_, ?_, ?_⟩
  · exact hall.settled ⟨⟨⟨2⟩, 2, ⟨3⟩, 0⟩, ⟨2⟩⟩ (by decide) _ (by decide)
  · exact hpure.settled ⟨⟨⟨1⟩, 0, ⟨2⟩, 2⟩, ⟨1⟩⟩ (by decide) _ (by decide)
  · exact hpure.stale ⟨⟨⟨2⟩, 2, ⟨3⟩, 0⟩, ⟨2⟩⟩ (by decide) (by decide) (by decide)
  · exact hpure.counted.trans (by decide)

end Graph

end FlowGraph
