import FlowGraph.Proofs.Dependencies
import FlowGraph.Proofs.Settling

/-!
# The inputs of one node

Refreshing the inputs of one node is a pass as well, over what the node depends on.  It
goes back through pure nodes only, and a node behind another that is not pure may have its
turn too late; but such a node is not invoked, and the values that it offers stay as they
are.  Hence the node and the pure nodes that contribute to it end as they do in a refresh of
the whole graph.
-/

namespace FlowGraph

namespace Graph

/-- What the refresh of the inputs of a node does at each node that it comes to. -/
def pullPlan (g : Graph) (target : NodeId) : Plan where
  inputs := g.dataInputs
  invokes id := id != target && g.isPure id

/-- A chain of data connections that start at pure nodes leads from one node to another. -/
def Contributes (g : Graph) : NodeId → NodeId → Prop :=
  Relation.TransGen fun a b => g.isPure a = true ∧ g.Feeds a b

variable {g : Graph} {target id : NodeId} {n : Node}

/-! ## A pass over what a node depends on -/

theorem apt_pullPlan (g : Graph) (target : NodeId) : (g.pullPlan target).Apt g where
  target_eq _ _ hc := (mem_dataInputs_iff.1 hc).2.1
  live _ hid := hasNode_of_isPure (Bool.and_eq_true_iff.1 hid).2

theorem refreshDependency_eq_settle {r : Run} (hr : r.graph.skeleton = g.skeleton)
    (target id : NodeId) : r.refreshDependency target id = r.settle (g.pullPlan target) id := by
  have hcopied : ∀ connections, (r.copyAll connections).graph.skeleton = g.skeleton :=
    fun connections => (Run.skeleton_copyAll r connections).trans hr
  rw [Run.refreshDependency, Run.settle, dataInputs_of_skeleton hr]
  simp only [Run.invokeIfPure, isPure_of_skeleton (hcopied _), pullPlan]
  by_cases htarget : id = target <;> by_cases hpure : g.isPure id <;> simp [htarget, hpure]

theorem refreshInputs_eq_pass (g : Graph) (target : NodeId) :
    g.refreshInputs target =
      Run.pass { graph := g } (g.pullPlan target) (g.dependencies target) :=
  Run.foldl_eq_pass (fun _ id hr => refreshDependency_eq_settle hr target id) rfl _

theorem skeleton_refreshInputs (g : Graph) (target : NodeId) :
    (g.refreshInputs target).graph.skeleton = g.skeleton :=
  Run.skeleton_refreshInputs { graph := g } target

/-- Whatever the walk goes back from has its turn after its sources. -/
theorem WellFormed.ready_pullPlan (hwf : g.WellFormed) {before after : List NodeId}
    (hsplit : g.dependencies target = before ++ id :: after)
    (hpast : id = target ∨ g.isPure id = true) : (g.pullPlan target).Ready id after := by
  apply Plan.Ready.of_before (hsplit ▸ g.nodup_dependencies target)
  intro c hc
  exact mem_before_of_dependencies (hwf.needs_acyclic target) hsplit
    ⟨hpast, feeds_iff.2 ⟨c, hc, rfl⟩⟩

/-- What is left at a node that the walk goes back from. -/
theorem WellFormed.memory?_refreshInputs (hwf : g.WellFormed) (hid : id ∈ g.dependencies target)
    (hpast : id = target ∨ g.isPure id = true) :
    (g.refreshInputs target).graph.memory? id =
      (g.memory? id).map ((g.pullPlan target).next (g.refreshInputs target).graph id) := by
  obtain ⟨before, after, hsplit⟩ := List.append_of_mem hid
  rw [refreshInputs_eq_pass]
  exact Run.memory?_pass (apt_pullPlan g target) hsplit (g.nodup_dependencies target)
    (hwf.ready_pullPlan hsplit hpast)

/-- What has come into a node stays there, if the node keeps its inputs when it is invoked. -/
theorem WellFormed.inputs_refreshInputs (hwf : g.WellFormed) (hid : id ∈ g.dependencies target)
    (hpast : id = target ∨ g.isPure id = true)
    (hkeeps : id ≠ target → ∀ m, (g.react id m).inputs = m.inputs) :
    ((g.refreshInputs target).graph.memory? id).map Memory.inputs =
      (g.memory? id).map fun m =>
        (m.receiveAll (g.refreshInputs target).graph.delivery? (g.dataInputs id)).inputs := by
  rw [hwf.memory?_refreshInputs hid hpast, Option.map_map]
  congr 1
  funext m
  rw [Function.comp_apply, Plan.next, pullPlan]
  split
  next hinvoked =>
    rw [react_of_skeleton (g.skeleton_refreshInputs target)]
    exact hkeeps (bne_iff_ne.1 (Bool.and_eq_true_iff.1 hinvoked).1) _
  next => rfl

/-- At each of its data inputs such a node holds what the source holds in the end. -/
theorem WellFormed.targetValue?_refreshInputs (hwf : g.WellFormed) {c : Connection}
    (hc : c ∈ g.dataInputs id) (hid : id ∈ g.dependencies target)
    (hpast : id = target ∨ g.isPure id = true)
    (hkeeps : id ≠ target → ∀ m, (g.react id m).inputs = m.inputs) {value : Value}
    (hvalue : (g.refreshInputs target).graph.sourceValue? c.toLink = some value) :
    (g.refreshInputs target).graph.targetValue? c.toLink = some value := by
  obtain ⟨hstored, rfl, -⟩ := mem_dataInputs_iff.1 hc
  obtain ⟨n, hn⟩ := Option.isSome_iff_exists.1 (hwf.hasNode_target hstored)
  have hdelivery : (g.refreshInputs target).graph.delivery? c.toLink = some value := by
    rw [hwf.delivery?_eq_of_mem (g.skeleton_refreshInputs target) hstored, hvalue]
  have hread : (g.refreshInputs target).graph.targetValue? c.toLink =
      (((g.refreshInputs target).graph.memory? c.target).map Memory.inputs).bind
        (·.get? c.targetPin) := by
    rw [targetValue?, Option.bind_map]
    rfl
  rw [hread, hwf.inputs_refreshInputs hid hpast hkeeps, memory?, hn, Option.map_some,
    Option.map_some, Option.bind_some]
  rw [Memory.get?_receiveAll_of_mem (hwf.pairwise_dataInputs c.target) hc, hdelivery,
    Option.some_or]

theorem outputs_refreshInputs_of_not_pure (hid : g.isPure id = false) (target : NodeId) :
    ((g.refreshInputs target).graph.memory? id).map Memory.outputs =
      (g.memory? id).map Memory.outputs := by
  have hinvokes : (g.pullPlan target).invokes id = false := by
    simp [pullPlan, hid]
  rw [refreshInputs_eq_pass]
  exact (Run.kept_pass_of_not_invoked (apt_pullPlan g target) hinvokes).1

/-! ## The same as a refresh of the whole graph -/

theorem Contributes.isPure (h : g.Contributes id target) : g.isPure id = true := by
  obtain ⟨_, hfirst, -⟩ := Relation.TransGen.head'_iff.1 h
  exact hfirst.1

theorem Contributes.feedsData (h : g.Contributes id target) : g.feedsData id = true := by
  obtain ⟨_, hfirst, -⟩ := Relation.TransGen.head'_iff.1 h
  exact hfirst.2.feedsData

theorem Contributes.mem_dependencies (h : g.Contributes id target) :
    id ∈ g.dependencies target := by
  apply mem_dependencies_iff.2
  induction h using Relation.TransGen.head_induction_on with
  | single hfirst => exact .single ⟨.inl rfl, hfirst.2⟩
  | head hfirst hrest ih => exact .head ⟨.inr (Contributes.isPure hrest), hfirst.2⟩ ih

theorem WellFormed.ne_of_contributes (hwf : g.WellFormed) (h : g.Contributes id target) :
    id ≠ target := by
  rintro rfl
  exact hwf.acyclic id (Relation.TransGen.mono (fun _ _ hab => hab.2.mem_edges) id id h)

/-- Of what a node depends on, the pure nodes contribute to it. -/
theorem contributes_of_mem_dependencies (hid : id ∈ g.dependencies target) (hne : id ≠ target)
    (hpure : g.isPure id = true) : g.Contributes id target := by
  have hchain := mem_dependencies_iff.1 hid
  induction hchain using Relation.ReflTransGen.head_induction_on with
  | refl => exact absurd rfl hne
  | @head id next hfirst hrest ih =>
    obtain ⟨hpast, hfeeds⟩ := hfirst
    by_cases hnext : next = target
    · rw [← hnext]
      exact .single ⟨hpure, hfeeds⟩
    · have hnextPure : g.isPure next = true := hpast.resolve_left hnext
      exact .head ⟨hpure, hfeeds⟩ (ih (mem_dependencies_iff.2 hrest) hnext hnextPure)

/-- The walk goes back from the target and from what contributes to it. -/
theorem walked_of_contributes (hid : id = target ∨ g.Contributes id target) :
    id ∈ g.dependencies target ∧ (id = target ∨ g.isPure id = true) := by
  rcases hid with rfl | hid
  · exact ⟨mem_dependencies_iff.2 .refl, .inl rfl⟩
  · exact ⟨hid.mem_dependencies, .inr hid.isPure⟩

/-- At the target and at what contributes to it, both refreshes do the same. -/
theorem next_pullPlan_eq (htarget : g.isPure target = false)
    (hid : id = target ∨ g.Contributes id target) (g' : Graph) :
    (g.pullPlan target).next g' id = (g.sweepPlan false).next g' id := by
  have hinvokes : (g.pullPlan target).invokes id = (g.sweepPlan false).invokes id := by
    rcases hid with rfl | hid
    · simp [pullPlan, sweepPlan, htarget]
    · have hne : id ≠ target := by
        rintro rfl
        rw [hid.isPure] at htarget
        cases htarget
      simp [pullPlan, sweepPlan, hne, hid.isPure, hid.feedsData]
  funext m
  rw [Plan.next, Plan.next, hinvokes, inputs_sweepPlan_false, pullPlan]

/-- By induction along the data connections: what comes into a node comes from pure nodes
that contribute as well or from nodes that offer what they offered before. -/
theorem WellFormed.memory?_refreshInputs_eq (hwf : g.WellFormed) (hcurrent : g.OrderCurrent)
    (htarget : g.isPure target = false) (hid : id = target ∨ g.Contributes id target) :
    (g.refreshInputs target).graph.memory? id = g.refreshAll.graph.memory? id := by
  have hskeleton : (g.refreshInputs target).graph.skeleton = g.refreshAll.graph.skeleton :=
    (g.skeleton_refreshInputs target).trans (skeleton_sweep g false).symm
  induction id using hwf.feeds_wellFounded.induction with
  | _ id ih =>
    have hdelivery : ∀ c ∈ (g.pullPlan target).inputs id,
        (g.refreshInputs target).graph.delivery? c.toLink =
          g.refreshAll.graph.delivery? c.toLink := by
      intro c hc
      have hfeeds : g.Feeds c.source id := feeds_iff.2 ⟨c, hc, rfl⟩
      apply delivery?_congr hskeleton
      cases hpure : g.isPure c.source with
      | true =>
        have hchain : g.Contributes c.source target := by
          rcases hid with rfl | hid
          · exact .single ⟨hpure, hfeeds⟩
          · exact .head ⟨hpure, hfeeds⟩ hid
        rw [ih c.source hfeeds (.inr hchain)]
      | false =>
        have hidle : c.source ∉ g.refreshers := by
          simp [refreshers, hpure]
        rw [outputs_refreshInputs_of_not_pure hpure, refreshAll,
          (hwf.untouched_sweep hcurrent hidle).1]
    obtain ⟨hmem, hpast⟩ := walked_of_contributes hid
    rw [hwf.memory?_refreshInputs hmem hpast,
      funext (Plan.next_congr hskeleton hdelivery), next_pullPlan_eq htarget hid]
    exact (hwf.memory?_sweep hcurrent false id).symm

/-- Refreshing the inputs of a node with an exec input and refreshing the whole graph leave
the same inputs, outputs and locals at the node and at all pure nodes that contribute to it.
That the known order is current is no restriction on graphs that arise from operations. -/
theorem refreshInputs_agrees (hwf : g.WellFormed) (hcurrent : g.OrderCurrent)
    (hn : g.node? target = some n) (hexec : ∃ pin ∈ n.inputs, pin.isExec = true) :
    (g.refreshInputs target).graph.memory? target = g.refreshAll.graph.memory? target ∧
      ∀ id, g.Contributes id target →
        (g.refreshInputs target).graph.memory? id = g.refreshAll.graph.memory? id := by
  have htarget : g.isPure target = false := by
    simpa [isPure, hn, Node.isPure] using hexec
  constructor
  · exact hwf.memory?_refreshInputs_eq hcurrent htarget (.inl rfl)
  · exact fun id hid => hwf.memory?_refreshInputs_eq hcurrent htarget (.inr hid)

theorem refreshInputs_agrees_feeding :
    feeding.WellFormed ∧ feeding.OrderCurrent ∧ feeding.Contributes ⟨0⟩ ⟨2⟩ ∧
      (feeding.refreshInputs ⟨2⟩).graph.targetValue? ⟨⟨1⟩, 0, ⟨2⟩, 2⟩ = some (.int 7) ∧
      (feeding.refreshInputs ⟨2⟩).graph.memory? ⟨2⟩ = feeding.refreshAll.graph.memory? ⟨2⟩ ∧
      (feeding.refreshInputs ⟨2⟩).graph.memory? ⟨0⟩ = feeding.refreshAll.graph.memory? ⟨0⟩ := by
  have hwf : feeding.WellFormed := by decide
  have hcurrent : feeding.OrderCurrent := by
    intro order horder
    cases horder
  have hchain : feeding.Contributes ⟨0⟩ ⟨2⟩ := by
    apply Relation.TransGen.head (b := ⟨1⟩)
    · exact ⟨rfl, ⟨⟨⟨0⟩, 0, ⟨1⟩, 0⟩, ⟨0⟩⟩, by decide, rfl, rfl, rfl⟩
    · exact .single ⟨rfl, ⟨⟨⟨1⟩, 0, ⟨2⟩, 2⟩, ⟨1⟩⟩, by decide, rfl, rfl, rfl⟩
  have hnode : feeding.node? ⟨2⟩ = some _ := rfl
  obtain ⟨htarget, hchains⟩ :=
    refreshInputs_agrees hwf hcurrent hnode ⟨_, List.mem_cons_self, rfl⟩
  exact ⟨hwf, hcurrent, hchain, by decide, htarget, hchains ⟨0⟩ hchain⟩

end Graph

end FlowGraph
