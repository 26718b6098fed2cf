import FlowGraph.Proofs.InsertionOrder
import FlowGraph.Proofs.PullScope

/-!
# The order of connections and the inputs of one node

Which nodes have a turn when the inputs of one node are refreshed does not depend on the order
in which connections were made, and neither does what is left at the node itself and at the
pure nodes that contribute to it.  But a node at which the walk stops has its turn before or
after the pure nodes that feed it, as the order of connections will have it, and takes in what
they offer at that time.  So what is left in such an input, and whether a copy is counted, can
depend on the order if the source offers something else after the refresh than before.
Nothing else depends on it.
-/

namespace FlowGraph

namespace Graph

/-- The walk back from the target comes to a node and stops there. -/
structure StopsAt (g : Graph) (target id : NodeId) : Prop where
  ne : id ≠ target
  not_pure : g.isPure id = false
  leads : g.LeadsInto id target

/-- A data connection into a node at which the walk stops, from a source that offers something
else after the refresh than before. -/
structure Unsettled (g : Graph) (target : NodeId) (c : Connection) : Prop where
  input : c ∈ g.dataInputs c.target
  stops : g.StopsAt target c.target
  changes : (g.refreshInputs target).graph.sourceValue? c.toLink ≠ g.sourceValue? c.toLink

/-- The refresh of the inputs of a node does the same in two graphs, as far as it can be told
without the order of their connections. -/
structure PulledAlike (g g' : Graph) (target : NodeId) : Prop where
  outputs : ∀ id, ((g.refreshInputs target).graph.memory? id).map Memory.outputs =
    ((g'.refreshInputs target).graph.memory? id).map Memory.outputs
  locals : ∀ id, ((g.refreshInputs target).graph.memory? id).map Memory.locals =
    ((g'.refreshInputs target).graph.memory? id).map Memory.locals
  /-- An input is left the same unless it is at the end of an unsettled connection. -/
  inputs : ∀ id pin, (∀ c ∈ g.dataInputs id, c.targetPin = pin → ¬ g.Unsettled target c) →
    (g.refreshInputs target).graph.inputValue? id pin =
      (g'.refreshInputs target).graph.inputValue? id pin
  invoked : (g.refreshInputs target).stats.invoked = (g'.refreshInputs target).stats.invoked
  /-- As many copies are counted if unsettled connections bring a value early and late, or
  neither early nor late. -/
  stats : (∀ c, g.Unsettled target c → (g.sourceValue? c.toLink).isSome =
      ((g.refreshInputs target).graph.sourceValue? c.toLink).isSome) →
    (g.refreshInputs target).stats = (g'.refreshInputs target).stats
  /-- All is the same if no pure node that contributes feeds a node at which the walk stops. -/
  alike : (∀ c, c ∈ g.dataInputs c.target → g.StopsAt target c.target →
      ¬ g.Contributes c.source target) →
    (∀ id, (g.refreshInputs target).graph.memory? id = (g'.refreshInputs target).graph.memory? id) ∧
      (g.refreshInputs target).stats = (g'.refreshInputs target).stats

variable {g g' : Graph} {target id : NodeId} {c : Connection}

/-! ## One graph -/

/-- What a node offers changes only if it contributes. -/
theorem WellFormed.sourceValue?_refreshInputs (hwf : g.WellFormed) {l : Link}
    (hidle : ¬ g.Contributes l.source target) :
    (g.refreshInputs target).graph.sourceValue? l = g.sourceValue? l :=
  sourceValue?_congr (hwf.kept_refreshInputs hidle).1

theorem WellFormed.contributes_of_unsettled (hwf : g.WellFormed) (h : g.Unsettled target c) :
    g.Contributes c.source target := by
  by_contra hidle
  exact h.changes (hwf.sourceValue?_refreshInputs hidle)

/-- An input of a node at which the walk stops is filled, if it does not matter when. -/
theorem WellFormed.targetValue?_of_settled (hwf : g.WellFormed) (hc : c ∈ g.dataInputs c.target)
    (hstops : g.StopsAt target c.target) (hsettled : ¬ g.Unsettled target c) :
    (g.refreshInputs target).graph.targetValue? c.toLink =
      (g.sourceValue? c.toLink).or (g.targetValue? c.toLink) := by
  have hoffers :
      (g.refreshInputs target).graph.sourceValue? c.toLink = g.sourceValue? c.toLink := by
    by_contra hchanges
    exact hsettled ⟨hc, hstops, hchanges⟩
  obtain ⟨offered, hoffered, hfilled⟩ :=
    hwf.filled_refreshInputs hstops.ne hstops.not_pure hstops.leads hc
  rw [hoffers, or_self] at hoffered
  rw [hfilled, hoffered]

/-- Every node that has a turn is the target, or contributes, or is one at which the walk
stops. -/
theorem walked_or_stopsAt (hid : id ∈ g.dependencies target) :
    (id = target ∨ g.Contributes id target) ∨ g.StopsAt target id := by
  by_cases hne : id = target
  · exact .inl (.inl hne)
  cases hpure : g.isPure id with
  | true => exact .inl (.inr (contributes_of_mem_dependencies hid hne hpure))
  | false =>
    exact .inr ⟨hne, hpure, (mem_dependencies_iff_leadsInto.1 hid).resolve_left hne⟩

/-- At each turn a value comes along a connection if and only if one does in the end, unless it
matters when the turn is. -/
theorem WellFormed.isSome_delivery?_at_turn (hwf : g.WellFormed) {before after : List NodeId}
    (hsplit : g.dependencies target = before ++ id :: after)
    (hsettled : ∀ c, g.Unsettled target c → (g.sourceValue? c.toLink).isSome =
      ((g.refreshInputs target).graph.sourceValue? c.toLink).isSome)
    (hc : c ∈ g.dataInputs id) :
    ((Run.pass { graph := g } (g.pullPlan target) before).graph.delivery? c.toLink).isSome =
      ((g.refreshInputs target).graph.delivery? c.toLink).isSome := by
  have hplan := apt_pullPlan g target
  have hmem : id ∈ g.dependencies target := by simp [hsplit]
  rcases walked_or_stopsAt hmem with hwalked | hstops
  · have hready := hwf.ready_pullPlan hsplit (walked_of_contributes hwalked).2
    rw [Run.delivery?_at_turn_of_ready hplan hsplit hready hc, ← refreshInputs_eq_pass]
  · obtain ⟨hstored, rfl, -⟩ := mem_dataInputs_iff.1 hc
    have hoffers : (g.sourceValue? c.toLink).isSome =
        ((g.refreshInputs target).graph.sourceValue? c.toLink).isSome := by
      by_cases hchanges :
          (g.refreshInputs target).graph.sourceValue? c.toLink = g.sourceValue? c.toLink
      · rw [hchanges]
      · exact hsettled c ⟨hc, hstops, hchanges⟩
    rcases Run.delivery?_at_turn (r := { graph := g }) hplan hsplit (g.nodup_dependencies target)
      c.toLink with hearly | hlate
    · rw [hearly, hwf.delivery?_eq_of_mem rfl hstored, hoffers,
        hwf.delivery?_eq_of_mem (g.skeleton_refreshInputs target) hstored]
    · rw [hlate, ← refreshInputs_eq_pass]

/-- The invocations are those of the pure nodes among the dependencies. -/
theorem invoked_refreshInputs (g : Graph) (target : NodeId) :
    (g.refreshInputs target).stats.invoked =
      (g.dependencies target).countP (g.pullPlan target).invokes := by
  have hcount := Run.countP_isInvocation_pass (r := { graph := g }) (apt_pullPlan g target)
    (g.dependencies target)
  rw [Run.stats_eq_ofEvents_moves, refreshInputs_eq_pass]
  exact hcount.trans (Nat.zero_add _)

/-- The copies are those of the connections that bring a value in the end, if it does not
matter when the turns are. -/
theorem WellFormed.copied_refreshInputs (hwf : g.WellFormed)
    (hsettled : ∀ c, g.Unsettled target c → (g.sourceValue? c.toLink).isSome =
      ((g.refreshInputs target).graph.sourceValue? c.toLink).isSome) :
    (g.refreshInputs target).stats.copied = ((g.dependencies target).flatMap fun id =>
      ((g.dataInputs id).map Connection.toLink).filter fun l =>
        ((g.refreshInputs target).graph.delivery? l).isSome).length := by
  have hmoves := Run.moves_pass_of_turns (g := (g.refreshInputs target).graph)
    (r := { graph := g }) (apt_pullPlan g target) fun _ _ _ hsplit _ hc =>
      hwf.isSome_delivery?_at_turn hsplit hsettled hc
  rw [← refreshInputs_eq_pass] at hmoves
  rw [Run.stats_eq_ofEvents_moves, hmoves]
  refine (Plan.countP_isCopy_moves _ _ _).trans ?_
  rw [← List.length_map Connection.toLink, List.map_flatMap]
  congr 2
  funext id
  rw [Plan.delivered, List.filter_map]
  rfl

namespace Rearranged

/-! ## What does not depend on the order -/

section

variable (h : g.Rearranged g')

include h

theorem symm : g'.Rearranged g where
  nodes id := (h.nodes id).symm
  links := h.links.symm

theorem sourceValue?_eq (l : Link) : g.sourceValue? l = g'.sourceValue? l := by
  rw [sourceValue?, h.memory?_eq, sourceValue?]

theorem targetValue?_eq (l : Link) : g.targetValue? l = g'.targetValue? l := by
  rw [targetValue?, h.memory?_eq, targetValue?]

theorem perm_dataInputs (id : NodeId) :
    ((g.dataInputs id).map Connection.toLink).Perm ((g'.dataInputs id).map Connection.toLink) := by
  simp only [dataInputs, h.carriesData_eq]
  exact h.perm_filter fun l => l.target == id && g'.carriesData l

/-- A data connection of one graph joins in the other what it joins here. -/
theorem exists_dataInput (hc : c ∈ g.dataInputs id) :
    ∃ d ∈ g'.dataInputs id, d.toLink = c.toLink :=
  List.mem_map.1 ((h.perm_dataInputs id).mem_iff.1 (List.mem_map_of_mem hc))

theorem feeds_of_feeds {a b : NodeId} (hfeeds : g.Feeds a b) : g'.Feeds a b := by
  obtain ⟨c, hc, rfl⟩ := feeds_iff.1 hfeeds
  obtain ⟨d, hd, hsame⟩ := h.exists_dataInput hc
  exact feeds_iff.2 ⟨d, hd, by rw [hsame]⟩

theorem feeds_eq : g.Feeds = g'.Feeds := by
  funext a b
  exact propext ⟨h.feeds_of_feeds, h.symm.feeds_of_feeds⟩

theorem contributes_eq : g.Contributes = g'.Contributes := by
  rw [Contributes, Contributes, h.feeds_eq]
  simp only [h.isPure_eq]

theorem stopsAt_of_stopsAt (hstops : g.StopsAt target id) : g'.StopsAt target id where
  ne := hstops.ne
  not_pure := by rw [← h.isPure_eq, hstops.not_pure]
  leads := by
    rw [LeadsInto, ← h.feeds_eq, ← h.contributes_eq]
    exact hstops.leads

theorem perm_dependencies (target : NodeId) :
    (g.dependencies target).Perm (g'.dependencies target) := by
  have hneeds : g.Needs target = g'.Needs target := by
    funext a b
    rw [Needs, Needs, h.feeds_eq, h.isPure_eq]
  apply (List.perm_ext_iff_of_nodup (g.nodup_dependencies target)
    (g'.nodup_dependencies target)).2
  intro id
  rw [mem_dependencies_iff, mem_dependencies_iff, hneeds]

theorem invokes_pullPlan_eq (target : NodeId) :
    (g.pullPlan target).invokes = (g'.pullPlan target).invokes := by
  simp only [pullPlan, h.isPure_eq]

theorem invoked_refreshInputs_eq (target : NodeId) :
    (g.refreshInputs target).stats.invoked = (g'.refreshInputs target).stats.invoked := by
  rw [invoked_refreshInputs, invoked_refreshInputs, h.invokes_pullPlan_eq,
    (h.perm_dependencies target).countP_eq]

end

/-! ## What the refresh leaves -/

section

variable (h : g.Rearranged g') (hwf : g.WellFormed)

include h hwf

/-- Where a node does not contribute, its outputs and locals are those from before in both
graphs. -/
theorem kept_refreshInputs_eq (hidle : ¬ g.Contributes id target) :
    ((g.refreshInputs target).graph.memory? id).map Memory.outputs =
        ((g'.refreshInputs target).graph.memory? id).map Memory.outputs ∧
      ((g.refreshInputs target).graph.memory? id).map Memory.locals =
        ((g'.refreshInputs target).graph.memory? id).map Memory.locals := by
  have hidle' : ¬ g'.Contributes id target := by rwa [← h.contributes_eq]
  obtain ⟨houtputs, hlocals⟩ := hwf.kept_refreshInputs hidle
  obtain ⟨houtputs', hlocals'⟩ := (h.wellFormed hwf).kept_refreshInputs hidle'
  rw [houtputs, houtputs', hlocals, hlocals', h.memory?_eq]
  exact ⟨rfl, rfl⟩

/-- At the target and at what contributes to it the same is left, by induction along the data
connections. -/
theorem memory?_refreshInputs_eq (hid : id = target ∨ g.Contributes id target) :
    (g.refreshInputs target).graph.memory? id = (g'.refreshInputs target).graph.memory? id := by
  induction id using hwf.feeds_wellFounded.induction with
  | _ id ih =>
    have hdelivery : ∀ c ∈ g.dataInputs id,
        (g.refreshInputs target).graph.delivery? c.toLink =
          (g'.refreshInputs target).graph.delivery? c.toLink := by
      intro c hc
      have hfeeds : g.Feeds c.source id := feeds_iff.2 ⟨c, hc, rfl⟩
      apply h.delivery?_eq (g.skeleton_refreshInputs target) (g'.skeleton_refreshInputs target)
      by_cases hchain : g.Contributes c.source target
      · rw [ih c.source hfeeds (.inr hchain)]
      · exact (h.kept_refreshInputs_eq hwf hchain).1
    have hnext : (g.pullPlan target).next (g.refreshInputs target).graph id =
        (g'.pullPlan target).next (g'.refreshInputs target).graph id :=
      h.next_eq (g.skeleton_refreshInputs target) (g'.skeleton_refreshInputs target)
        (congrFun (h.invokes_pullPlan_eq target) id) (hwf.pairwise_dataInputs id)
        (h.perm_dataInputs id) hdelivery
    have hid' : id = target ∨ g'.Contributes id target := by rwa [← h.contributes_eq]
    obtain ⟨hmem, hpast⟩ := walked_of_contributes hid
    obtain ⟨hmem', hpast'⟩ := walked_of_contributes hid'
    rw [hwf.memory?_refreshInputs hmem hpast, hnext, h.memory?_eq,
      (h.wellFormed hwf).memory?_refreshInputs hmem' hpast']

theorem stores_refreshInputs_eq (target id : NodeId) :
    ((g.refreshInputs target).graph.memory? id).map Memory.outputs =
        ((g'.refreshInputs target).graph.memory? id).map Memory.outputs ∧
      ((g.refreshInputs target).graph.memory? id).map Memory.locals =
        ((g'.refreshInputs target).graph.memory? id).map Memory.locals := by
  by_cases hchain : g.Contributes id target
  · rw [h.memory?_refreshInputs_eq hwf (.inr hchain)]
    exact ⟨rfl, rfl⟩
  · exact h.kept_refreshInputs_eq hwf hchain

theorem sourceValue?_refreshInputs_eq (target : NodeId) (l : Link) :
    (g.refreshInputs target).graph.sourceValue? l =
      (g'.refreshInputs target).graph.sourceValue? l :=
  sourceValue?_congr (h.stores_refreshInputs_eq hwf target l.source).1

/-- Whether it matters when a node has its turn does not depend on the order. -/
theorem exists_unsettled {d : Connection} (hd : g'.Unsettled target d) :
    ∃ c, g.Unsettled target c ∧ c.toLink = d.toLink := by
  obtain ⟨hinput, hstops, hchanges⟩ := hd
  obtain ⟨c, hc, hsame⟩ := h.symm.exists_dataInput hinput
  have htarget : c.target = d.target := congrArg Link.target hsame
  refine ⟨c, ⟨htarget ▸ hc, htarget ▸ h.symm.stopsAt_of_stopsAt hstops, ?_⟩, hsame⟩
  rw [hsame, h.sourceValue?_refreshInputs_eq hwf, h.sourceValue?_eq]
  exact hchanges

theorem targetValue?_refreshInputs_eq (hc : c ∈ g.dataInputs c.target)
    (hstops : g.StopsAt target c.target)
    (hsettled : ∀ d, d.toLink = c.toLink → ¬ g.Unsettled target d) :
    (g.refreshInputs target).graph.targetValue? c.toLink =
      (g'.refreshInputs target).graph.targetValue? c.toLink := by
  obtain ⟨d, hd, hsame⟩ := h.exists_dataInput hc
  have htarget : c.target = d.target := congrArg Link.target hsame.symm
  have hsettled' : ¬ g'.Unsettled target d := by
    intro hunsettled
    obtain ⟨e, he, hlink⟩ := h.exists_unsettled hwf hunsettled
    exact hsettled e (hlink.trans hsame) he
  have hfilled' := (h.wellFormed hwf).targetValue?_of_settled (htarget ▸ hd)
    (htarget ▸ h.stopsAt_of_stopsAt hstops) hsettled'
  rw [hsame, ← h.sourceValue?_eq, ← h.targetValue?_eq] at hfilled'
  rw [hfilled', hwf.targetValue?_of_settled hc hstops (hsettled c rfl)]

/-- An input is left the same unless it matters when its node has its turn. -/
theorem inputValue?_refreshInputs_eq {pin : Nat}
    (hsettled : ∀ c ∈ g.dataInputs id, c.targetPin = pin → ¬ g.Unsettled target c) :
    (g.refreshInputs target).graph.inputValue? id pin =
      (g'.refreshInputs target).graph.inputValue? id pin := by
  by_cases hwalked : id = target ∨ g.Contributes id target
  · rw [inputValue?, inputValue?, h.memory?_refreshInputs_eq hwf hwalked]
  by_cases hmem : id ∈ g.dependencies target
  · have hstops := (walked_or_stopsAt hmem).resolve_left hwalked
    by_cases hentered : ∃ c ∈ g.dataInputs id, c.targetPin = pin
    · obtain ⟨c, hc, rfl⟩ := hentered
      obtain ⟨-, rfl, -⟩ := mem_dataInputs_iff.1 hc
      apply h.targetValue?_refreshInputs_eq hwf hc hstops
      intro d hsame hunsettled
      have htarget : d.target = c.target := congrArg Link.target hsame
      exact hsettled d (htarget ▸ hunsettled.input) (congrArg Link.targetPin hsame) hunsettled
    · have hfree : ∀ c ∈ g.dataInputs id, c.targetPin ≠ pin :=
        fun c hc hpin => hentered ⟨c, hc, hpin⟩
      have hfree' : ∀ c ∈ g'.dataInputs id, c.targetPin ≠ pin := by
        intro c hc
        obtain ⟨d, hd, hsame⟩ := h.symm.exists_dataInput hc
        rw [← hsame]
        exact hfree d hd
      have hidle : ¬ g.Contributes id target := fun hchain => hwalked (.inr hchain)
      rw [hwf.spared_refreshInputs hidle hfree,
        (h.wellFormed hwf).spared_refreshInputs (h.contributes_eq ▸ hidle) hfree', inputValue?,
        h.memory?_eq, inputValue?]
  · have hmem' : id ∉ g'.dependencies target := by
      rwa [← (h.perm_dependencies target).mem_iff]
    rw [inputValue?, inputValue?, memory?_refreshInputs_of_notMem hmem,
      memory?_refreshInputs_of_notMem hmem', h.memory?_eq]

/-- So is all that a node remembers, if it matters for none of its inputs. -/
theorem memory?_refreshInputs_of_settled
    (hsettled : ∀ c ∈ g.dataInputs id, ¬ g.Unsettled target c) :
    (g.refreshInputs target).graph.memory? id = (g'.refreshInputs target).graph.memory? id := by
  obtain ⟨houtputs, hlocals⟩ := h.stores_refreshInputs_eq hwf target id
  refine memory?_ext (map_memory?_ext ?_ Memory.inputs fun pin => ?_) houtputs hlocals
  · rw [hasNode_of_skeleton (g.skeleton_refreshInputs target),
      hasNode_of_skeleton (g'.skeleton_refreshInputs target), h.hasNode_eq]
  · exact h.inputValue?_refreshInputs_eq hwf fun c hc _ => hsettled c hc

/-! ## What is counted -/

theorem stats_refreshInputs_eq
    (hsettled : ∀ c, g.Unsettled target c → (g.sourceValue? c.toLink).isSome =
      ((g.refreshInputs target).graph.sourceValue? c.toLink).isSome) :
    (g.refreshInputs target).stats = (g'.refreshInputs target).stats := by
  have hsettled' : ∀ d, g'.Unsettled target d → (g'.sourceValue? d.toLink).isSome =
      ((g'.refreshInputs target).graph.sourceValue? d.toLink).isSome := by
    intro d hd
    obtain ⟨c, hc, hsame⟩ := h.exists_unsettled hwf hd
    rw [← hsame, ← h.sourceValue?_eq, ← h.sourceValue?_refreshInputs_eq hwf]
    exact hsettled c hc
  have hdelivery : (g.refreshInputs target).graph.delivery? =
      (g'.refreshInputs target).graph.delivery? := by
    funext l
    exact h.delivery?_eq (g.skeleton_refreshInputs target) (g'.skeleton_refreshInputs target)
      (h.stores_refreshInputs_eq hwf target l.source).1
  have hcopied :
      (g.refreshInputs target).stats.copied = (g'.refreshInputs target).stats.copied := by
    rw [hwf.copied_refreshInputs hsettled, (h.wellFormed hwf).copied_refreshInputs hsettled',
      hdelivery]
    apply List.Perm.length_eq
    exact (h.perm_dependencies target).flatMap fun id _ => (h.perm_dataInputs id).filter _
  have hinvoked := h.invoked_refreshInputs_eq target
  revert hcopied hinvoked
  cases (g.refreshInputs target).stats
  cases (g'.refreshInputs target).stats
  rintro rfl rfl
  rfl

end

end Rearranged

/-- In two graphs with the same nodes and the same links, made in whatever order, the refresh
of the inputs of a node leaves the same outputs and locals at every node and invokes as many
nodes.  It leaves the same inputs as well and counts as many copies, except where the walk
stops at a node that is fed by a source which offers something else after the refresh than
before.  There is no such source if no pure node that contributes feeds a node at which the
walk stops, and then the order makes no difference at all. -/
theorem refreshInputs_pulled_alike (h : g.Rearranged g') (hwf : g.WellFormed) (target : NodeId) :
    g.PulledAlike g' target where
  outputs id := (h.stores_refreshInputs_eq hwf target id).1
  locals id := (h.stores_refreshInputs_eq hwf target id).2
  inputs _ _ hsettled := h.inputValue?_refreshInputs_eq hwf hsettled
  invoked := h.invoked_refreshInputs_eq target
  stats hsettled := h.stats_refreshInputs_eq hwf hsettled
  alike hapart := by
    have hsettled : ∀ c, ¬ g.Unsettled target c := fun c hc =>
      hapart c hc.input hc.stops (hwf.contributes_of_unsettled hc)
    constructor
    · exact fun id => h.memory?_refreshInputs_of_settled hwf fun c _ => hsettled c
    · exact h.stats_refreshInputs_eq hwf fun c hc => absurd hc (hsettled c)

/-- A graph to look at: a number that has not been offered yet goes to a relay with an exec
input and to a display, and so does what the relay offers.  Its connections are restored in a
given order. -/
def crossing (connections : List Connection) : Graph :=
  ([Operation.addNode
      { title := "Number"
        inputs := [.data "In" (.int 5)]
        outputs := [{ name := "Out", cls := .data }]
        behavior := some fun _ _ m =>
          ({ m with outputs := m.outputs.set 0 ((m.inputs.get? 0).getD (.int 0)) }, []) },
    .addNode
      { title := "Relay"
        inputs := [.exec "Run", .data "In" (.int 0)]
        outputs := [.data "Out" (.int 3)] },
    .addNode
      { title := "Display", inputs := [.data "Left" (.int 0), .data "Right" (.int 0)] }] ++
    connections.map Operation.restore).foldl Operation.apply {}

/-- Those from the number to the relay, from the number to the display and from the relay to
the display. -/
def triangle : List Connection :=
  [⟨⟨⟨0⟩, 0, ⟨1⟩, 1⟩, ⟨0⟩⟩, ⟨⟨⟨0⟩, 0, ⟨2⟩, 0⟩, ⟨1⟩⟩, ⟨⟨⟨1⟩, 0, ⟨2⟩, 1⟩, ⟨2⟩⟩]

theorem rearranged_crossing : (crossing triangle).Rearranged (crossing triangle.reverse) :=
  ⟨fun _ => rfl, by decide⟩

/-- Whichever of the two inputs of the display was connected first, the display shows the same
and the number is invoked once. -/
theorem refreshInputs_pulled_alike_crossing :
    (crossing triangle).WellFormed ∧
      ((crossing triangle).refreshInputs ⟨2⟩).stats.invoked =
        ((crossing triangle.reverse).refreshInputs ⟨2⟩).stats.invoked ∧
      ((crossing triangle).refreshInputs ⟨2⟩).graph.inputValue? ⟨2⟩ 0 =
        ((crossing triangle.reverse).refreshInputs ⟨2⟩).graph.inputValue? ⟨2⟩ 0 := by
  have hwf : (crossing triangle).WellFormed := by decide
  have halike := refreshInputs_pulled_alike rearranged_crossing hwf ⟨2⟩
  exact ⟨hwf, halike.invoked, halike.inputs ⟨2⟩ 0 fun _ hc _ h =>
    h.stops.ne (mem_dataInputs_iff.1 hc).2.1⟩

/-- But the relay has its turn before the number in one case and after it in the other, so that
nothing comes into it or the number does, and a copy more is counted. -/
theorem turn_of_relay_matters_crossing :
    (crossing triangle).Rearranged (crossing triangle.reverse) ∧
      (crossing triangle).WellFormed ∧
      ((crossing triangle).refreshInputs ⟨2⟩).graph.inputValue? ⟨1⟩ 1 = some (.int 0) ∧
      ((crossing triangle.reverse).refreshInputs ⟨2⟩).graph.inputValue? ⟨1⟩ 1 = some (.int 5) ∧
      ((crossing triangle).refreshInputs ⟨2⟩).stats = { invoked := 1, copied := 2 } ∧
      ((crossing triangle.reverse).refreshInputs ⟨2⟩).stats = { invoked := 1, copied := 3 } :=
  ⟨rearranged_crossing, by decide, by decide, by decide, by decide, by decide⟩

end Graph

end FlowGraph
