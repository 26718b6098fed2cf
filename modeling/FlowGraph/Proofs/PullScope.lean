import FlowGraph.Catalog.Standard
import FlowGraph.Proofs.LazyPull
import FlowGraph.Proofs.Operation

/-!
# How far the refresh of one node's inputs reaches

The refresh goes back from a node through pure nodes and invokes these, each once and after
its inputs have come in.  It stops at nodes that are not pure, and takes the values that they
offer.  But a node at which it stops has a turn as well: what feeds it is copied into its
inputs, although it is neither the node whose inputs are refreshed nor walked past.  Nothing
else of it changes, and nothing at all of any other node.
-/

namespace FlowGraph

namespace Graph

/-- A data connection leads from a node into another, or into a pure node that contributes to
it. -/
def LeadsInto (g : Graph) (id target : NodeId) : Prop :=
  ∃ next, g.Feeds id next ∧ (next = target ∨ g.Contributes next target)

/-- How far a refresh of the inputs of a node reaches. -/
structure PullScope (g : Graph) (target : NodeId) (r : Run) : Prop where
  /-- A node from which nothing leads into the target stays as it is. -/
  untouched : ∀ id, id ≠ target → ¬ g.LeadsInto id target → r.graph.memory? id = g.memory? id
  /-- Outputs and locals change only at the pure nodes that contribute. -/
  kept : ∀ id, ¬ g.Contributes id target →
    (r.graph.memory? id).map Memory.outputs = (g.memory? id).map Memory.outputs ∧
      (r.graph.memory? id).map Memory.locals = (g.memory? id).map Memory.locals
  /-- At all other nodes, the target among them, only inputs change into which a data
  connection leads. -/
  spared : ∀ id, ¬ g.Contributes id target → ∀ pin,
    (∀ c ∈ g.dataInputs id, c.targetPin ≠ pin) →
      r.graph.inputValue? id pin = g.inputValue? id pin
  /-- Such an input of a node at which the walk stops is filled with what its source offered
  before the refresh or with what it offers afterwards. -/
  filled : ∀ id, id ≠ target → g.isPure id = false → g.LeadsInto id target →
    ∀ c ∈ g.dataInputs id, ∃ offered,
      (offered = g.sourceValue? c.toLink ∨ offered = r.graph.sourceValue? c.toLink) ∧
        r.graph.targetValue? c.toLink = offered.or (g.targetValue? c.toLink)
  /-- The pure nodes that contribute are invoked once each. -/
  once : ∀ id, g.Contributes id target → r.moves.count (.invoked id) = 1
  /-- No other node is invoked. -/
  idle : ∀ id, ¬ g.Contributes id target → .invoked id ∉ r.moves
  /-- A node is invoked when its inputs have been copied. -/
  copiedBefore : ∀ id, g.Contributes id target → ∃ before after,
    r.moves = before ++ .invoked id :: after ∧
      ∀ c ∈ g.dataInputs id,
        (.copied c.id ∈ before ↔ (r.graph.sourceValue? c.toLink).isSome) ∧
          .copied c.id ∉ after

variable {g : Graph} {target id : NodeId} {c : Connection}

/-! ## The nodes that have a turn -/

theorem mem_dependencies_iff_leadsInto :
    id ∈ g.dependencies target ↔ id = target ∨ g.LeadsInto id target := by
  rw [mem_dependencies_iff]
  constructor
  · intro hchain
    rcases Relation.ReflTransGen.cases_head hchain with rfl | ⟨next, ⟨hpast, hfeeds⟩, hrest⟩
    · exact .inl rfl
    · refine .inr ⟨next, hfeeds, ?_⟩
      by_cases hnext : next = target
      · exact .inl hnext
      · exact .inr (contributes_of_mem_dependencies (mem_dependencies_iff.2 hrest) hnext
          (hpast.resolve_left hnext))
  · rintro (rfl | ⟨next, hfeeds, rfl | hnext⟩)
    · exact .refl
    · exact .single ⟨.inl rfl, hfeeds⟩
    · exact .head ⟨.inr hnext.isPure, hfeeds⟩ (mem_dependencies_iff.1 hnext.mem_dependencies)

/-- The nodes that are invoked at their turn are the pure ones that contribute. -/
theorem WellFormed.contributes_iff (hwf : g.WellFormed) :
    g.Contributes id target ↔
      id ∈ g.dependencies target ∧ (g.pullPlan target).invokes id = true := by
  rw [pullPlan, Bool.and_eq_true, bne_iff_ne]
  constructor
  · exact fun h => ⟨h.mem_dependencies, hwf.ne_of_contributes h, h.isPure⟩
  · rintro ⟨hmem, hne, hpure⟩
    exact contributes_of_mem_dependencies hmem hne hpure

theorem memory?_refreshInputs_of_notMem (hid : id ∉ g.dependencies target) :
    (g.refreshInputs target).graph.memory? id = g.memory? id := by
  rw [refreshInputs_eq_pass]
  exact Run.memory?_pass_of_notMem (apt_pullPlan g target) hid

/-- At its turn a node that is not invoked takes in what its sources offer, be it what they
offered before the refresh or what they will offer in the end. -/
theorem exists_receiveAll_refreshInputs (hid : id ∈ g.dependencies target)
    (hinvokes : (g.pullPlan target).invokes id = false) :
    ∃ deliver : Link → Option Value,
      (∀ l, deliver l = g.delivery? l ∨ deliver l = (g.refreshInputs target).graph.delivery? l) ∧
        (g.refreshInputs target).graph.memory? id =
          (g.memory? id).map (·.receiveAll deliver (g.dataInputs id)) := by
  obtain ⟨before, after, hsplit⟩ := List.append_of_mem hid
  have hplan := apt_pullPlan g target
  have hdistinct := g.nodup_dependencies target
  rw [refreshInputs_eq_pass]
  refine ⟨(Run.pass { graph := g } (g.pullPlan target) before).graph.delivery?,
    Run.delivery?_at_turn hplan hsplit hdistinct, ?_⟩
  rw [Run.memory?_pass_at_turn hplan hsplit hdistinct]
  congr 1
  funext m
  rw [Plan.next, hinvokes]
  rfl

theorem WellFormed.not_invokes (hwf : g.WellFormed) (hid : ¬ g.Contributes id target)
    (hmem : id ∈ g.dependencies target) : (g.pullPlan target).invokes id = false := by
  rw [hwf.contributes_iff, not_and] at hid
  exact Bool.eq_false_iff.2 (hid hmem)

/-! ## What changes -/

theorem WellFormed.kept_refreshInputs (hwf : g.WellFormed) (hid : ¬ g.Contributes id target) :
    ((g.refreshInputs target).graph.memory? id).map Memory.outputs =
        (g.memory? id).map Memory.outputs ∧
      ((g.refreshInputs target).graph.memory? id).map Memory.locals =
        (g.memory? id).map Memory.locals := by
  by_cases hmem : id ∈ g.dependencies target
  · rw [refreshInputs_eq_pass]
    exact Run.kept_pass_of_not_invoked (apt_pullPlan g target) (hwf.not_invokes hid hmem)
  · rw [memory?_refreshInputs_of_notMem hmem]
    exact ⟨rfl, rfl⟩

theorem WellFormed.spared_refreshInputs (hwf : g.WellFormed) (hid : ¬ g.Contributes id target)
    {pin : Nat} (hpin : ∀ c ∈ g.dataInputs id, c.targetPin ≠ pin) :
    (g.refreshInputs target).graph.inputValue? id pin = g.inputValue? id pin := by
  rw [inputValue?, inputValue?]
  by_cases hmem : id ∈ g.dependencies target
  · obtain ⟨deliver, -, hmemory⟩ :=
      exists_receiveAll_refreshInputs hmem (hwf.not_invokes hid hmem)
    rw [hmemory, Option.bind_map]
    congr 1
    funext m
    exact Memory.get?_receiveAll_of_none fun c hc h => absurd h (hpin c hc)
  · rw [memory?_refreshInputs_of_notMem hmem]

theorem WellFormed.filled_refreshInputs (hwf : g.WellFormed) (hne : id ≠ target)
    (hpure : g.isPure id = false) (hleads : g.LeadsInto id target) (hc : c ∈ g.dataInputs id) :
    ∃ offered, (offered = g.sourceValue? c.toLink ∨
        offered = (g.refreshInputs target).graph.sourceValue? c.toLink) ∧
      (g.refreshInputs target).graph.targetValue? c.toLink =
        offered.or (g.targetValue? c.toLink) := by
  obtain ⟨hstored, rfl, -⟩ := mem_dataInputs_iff.1 hc
  have hmem : c.target ∈ g.dependencies target := mem_dependencies_iff_leadsInto.2 (.inr hleads)
  have hinvokes : (g.pullPlan target).invokes c.target = false := by
    simp [pullPlan, hpure]
  obtain ⟨deliver, hdeliver, hmemory⟩ := exists_receiveAll_refreshInputs hmem hinvokes
  refine ⟨deliver c.toLink, ?_, ?_⟩
  · rw [← hwf.delivery?_eq_of_mem rfl hstored,
      ← hwf.delivery?_eq_of_mem (g.skeleton_refreshInputs target) hstored]
    exact hdeliver c.toLink
  · obtain ⟨n, hn⟩ := Option.isSome_iff_exists.1 (hwf.hasNode_target hstored)
    rw [targetValue?, targetValue?, hmemory, memory?, hn]
    exact Memory.get?_receiveAll_of_mem (hwf.pairwise_dataInputs c.target) hc

/-! ## What happens -/

/-- The pure nodes that contribute have one turn each, and are the only ones invoked. -/
theorem WellFormed.count_invoked_refreshInputs (hwf : g.WellFormed) (target id : NodeId)
    [Decidable (g.Contributes id target)] :
    (g.refreshInputs target).moves.count (.invoked id) =
      if g.Contributes id target then 1 else 0 := by
  rw [refreshInputs_eq_pass, Run.count_invoked_pass (apt_pullPlan g target)]
  have hbegin : (Run.moves { graph := g }).count (.invoked id) = 0 := rfl
  rw [hbegin, Nat.zero_add]
  by_cases hid : g.Contributes id target
  · obtain ⟨hmem, hinvokes⟩ := hwf.contributes_iff.1 hid
    rw [if_pos hid, if_pos hinvokes]
    exact List.count_eq_one_of_mem (g.nodup_dependencies target) hmem
  · rw [if_neg hid]
    split
    next hinvokes =>
      apply List.count_eq_zero_of_not_mem
      exact fun hmem => hid (hwf.contributes_iff.2 ⟨hmem, hinvokes⟩)
    next => rfl

theorem WellFormed.copiedBefore_refreshInputs (hwf : g.WellFormed)
    (hid : g.Contributes id target) :
    ∃ before after, (g.refreshInputs target).moves = before ++ .invoked id :: after ∧
      ∀ c ∈ g.dataInputs id,
        (.copied c.id ∈ before ↔
            ((g.refreshInputs target).graph.sourceValue? c.toLink).isSome) ∧
          .copied c.id ∉ after := by
  obtain ⟨hmem, hinvokes⟩ := hwf.contributes_iff.1 hid
  obtain ⟨earlier, later, hsplit⟩ := List.append_of_mem hmem
  have hkeys : ∀ other, ∀ c ∈ g.dataInputs id, ∀ d ∈ g.dataInputs other, d.id = c.id → d = c :=
    fun _ c hc d hd => Table.eq_of_key_eq g.connections.distinct
      (mem_dataInputs_iff.1 hd).1 (mem_dataInputs_iff.1 hc).1
  obtain ⟨before, after, hmoves, hcopied⟩ := Run.copied_before_invoked (r := { graph := g })
    (apt_pullPlan g target) rfl hsplit (g.nodup_dependencies target)
    (hwf.ready_pullPlan hsplit (.inr hid.isPure)) hinvokes hkeys
  rw [← refreshInputs_eq_pass] at hmoves hcopied
  refine ⟨before, after, hmoves, fun c hc => ?_⟩
  rw [← hwf.delivery?_eq_of_mem (g.skeleton_refreshInputs target) (mem_dataInputs_iff.1 hc).1]
  exact hcopied c hc

/-- In a well-formed graph the refresh of the inputs of a node changes nothing but the inputs
of the nodes from which data leads into it, its own inputs, and what the pure nodes that
contribute answer.  Each of these is invoked once, when its inputs have been copied, and no
other node is.  A node at which the walk stops takes in what its sources offer. -/
theorem refreshInputs_stays_upstream (hwf : g.WellFormed) (target : NodeId) :
    g.PullScope target (g.refreshInputs target) where
  untouched id hne hleads := by
    apply memory?_refreshInputs_of_notMem
    rw [mem_dependencies_iff_leadsInto]
    exact not_or.2 ⟨hne, hleads⟩
  kept _ hid := hwf.kept_refreshInputs hid
  spared _ hid _ hpin := hwf.spared_refreshInputs hid hpin
  filled _ hne hpure hleads _ hc := hwf.filled_refreshInputs hne hpure hleads hc
  once id hid := by
    classical
    rw [hwf.count_invoked_refreshInputs, if_pos hid]
  idle id hid := by
    classical
    rw [← List.count_eq_zero, hwf.count_invoked_refreshInputs, if_neg hid]
  copiedBefore _ hid := hwf.copiedBefore_refreshInputs hid

/-- A graph to look at: a number goes to a relay with an exec input, and what the relay offers
goes on to a display.  The number has just been changed. -/
def relaying : Graph :=
  [.addNode { title := "Number", outputs := [.data "Value" (.int 1)] },
    .addNode
      { title := "Relay"
        inputs := [.exec "Run", .data "In" (.int 0)]
        outputs := [.data "Out" (.int 3)] },
    .addNode { title := "Display", inputs := [.data "Shown" (.int 0)] },
    .connect ⟨0⟩ ⟨⟨0⟩, 0, ⟨1⟩, 1⟩,
    .connect ⟨1⟩ ⟨⟨1⟩, 0, ⟨2⟩, 0⟩,
    .setOutput ⟨0⟩ 0 (.int 2)].foldl Operation.apply {}

/-- From the display the walk stops at the relay, but the number comes into the relay all the
same. -/
theorem relay_takes_in_relaying :
    relaying.WellFormed ∧ relaying.isPure ⟨1⟩ = false ∧
      relaying.inputValue? ⟨1⟩ 1 = some (.int 1) ∧
      (relaying.refreshInputs ⟨2⟩).graph.inputValue? ⟨1⟩ 1 = some (.int 2) := by
  decide

/-- The same graph with a node that passes on what the relay offers, and a display of what it
passes on.  What the relay offers has just been changed as well. -/
def forwarding : Graph :=
  [.addNode
      { title := "Pass on"
        inputs := [.data "In" (.int 0)]
        outputs := [.data "Out" (.int 0)]
        behavior := some Catalog.forwardBehavior },
    .addNode { title := "Display", inputs := [.data "Shown" (.int 0)] },
    .connect ⟨2⟩ ⟨⟨1⟩, 0, ⟨3⟩, 0⟩,
    .connect ⟨3⟩ ⟨⟨3⟩, 0, ⟨4⟩, 0⟩,
    .setOutput ⟨1⟩ 0 (.int 4)].foldl Operation.apply relaying

/-- From the second display the walk goes past the node that passes on, which is invoked once
and after the copy into it, and stops at the relay.  What the relay offers stays as it is, and
neither it nor the number is invoked; the number and the first display stay as they are. -/
theorem refreshInputs_stays_upstream_forwarding :
    forwarding.WellFormed ∧ forwarding.Contributes ⟨3⟩ ⟨4⟩ ∧
      (forwarding.refreshInputs ⟨4⟩).moves.count (.invoked ⟨3⟩) = 1 ∧
      (∃ before after,
        (forwarding.refreshInputs ⟨4⟩).moves = before ++ .invoked ⟨3⟩ :: after ∧
          .copied ⟨2⟩ ∈ before) ∧
      (forwarding.refreshInputs ⟨4⟩).graph.inputValue? ⟨4⟩ 0 = some (.int 4) ∧
      ((forwarding.refreshInputs ⟨4⟩).graph.memory? ⟨1⟩).map Memory.outputs =
        (forwarding.memory? ⟨1⟩).map Memory.outputs ∧
      .invoked ⟨1⟩ ∉ (forwarding.refreshInputs ⟨4⟩).moves ∧
      .invoked ⟨0⟩ ∉ (forwarding.refreshInputs ⟨4⟩).moves ∧
      (forwarding.refreshInputs ⟨4⟩).graph.memory? ⟨0⟩ = forwarding.memory? ⟨0⟩ ∧
      (forwarding.refreshInputs ⟨4⟩).graph.memory? ⟨2⟩ = forwarding.memory? ⟨2⟩ := by
  have hwf : forwarding.WellFormed := by decide
  have hscope := refreshInputs_stays_upstream hwf ⟨4⟩
  have hpassOn : forwarding.Contributes ⟨3⟩ ⟨4⟩ := hwf.contributes_iff.2 ⟨by decide, by decide⟩
  have hrelay : ¬ forwarding.Contributes ⟨1⟩ ⟨4⟩ := fun h => absurd h.isPure (by decide)
  have hoff : ∀ id ∉ forwarding.dependencies ⟨4⟩,
      id ≠ ⟨4⟩ ∧ ¬ forwarding.LeadsInto id ⟨4⟩ := by
    intro id hid
    rw [mem_dependencies_iff_leadsInto] at hid
    exact not_or.1 hid
  have hnumber : (⟨0⟩ : NodeId) ∉ forwarding.dependencies ⟨4⟩ := by decide
  have hdisplay : (⟨2⟩ : NodeId) ∉ forwarding.dependencies ⟨4⟩ := by decide
  have hfed : ⟨⟨⟨1⟩, 0, ⟨3⟩, 0⟩, ⟨2⟩⟩ ∈ forwarding.dataInputs ⟨3⟩ := by decide
  obtain ⟨before, after, hmoves, hcopied⟩ := hscope.copiedBefore ⟨3⟩ hpassOn
  have hcopy : .copied ⟨2⟩ ∈ before := (hcopied _ hfed).1.2 (by decide)
  exact ⟨hwf, hpassOn, hscope.once ⟨3⟩ hpassOn, ⟨before, after, hmoves, hcopy⟩, by decide,
    (hscope.kept ⟨1⟩ hrelay).1, hscope.idle ⟨1⟩ hrelay,
    hscope.idle ⟨0⟩ fun h => hnumber h.mem_dependencies,
    hscope.untouched ⟨0⟩ (hoff ⟨0⟩ hnumber).1 (hoff ⟨0⟩ hnumber).2,
    hscope.untouched ⟨2⟩ (hoff ⟨2⟩ hdisplay).1 (hoff ⟨2⟩ hdisplay).2⟩

end Graph

end FlowGraph
