import FlowGraph.Proofs.EarlyRefresh

/-!
# After a refresh nothing is left to refresh

A graph is at rest if every data input agrees with the output that it is connected to, and
if no pure node that feeds others would answer anything new.  A refresh of all values brings
a graph to rest when no pure node has a state of its own.  Whatever is refreshed from then
on, in whatever order, is made of small changes, and none of those changes anything.
-/

namespace FlowGraph

/-- A call that refreshes values and does nothing else. -/
def Operation.Pulls : Operation → Prop
  | .refreshPure => True
  | .refreshAll => True
  | .refreshConnection _ => True
  | .refreshInputs _ => True
  | .perform (.execute _) => False
  | .perform _ => True
  | _ => False

namespace Graph

/-- In a refresh, pure nodes that feed others are invoked and nothing else is done at
nodes. -/
def Refills (g : Graph) (deed : Deed) : Prop :=
  ∃ id, deed = .invoke id ∧ g.isPure id = true ∧ g.feedsData id = true

/-- There is nothing to refresh. -/
structure AtRest (g : Graph) : Prop where
  /-- Each data input holds what would be copied into it. -/
  settled : ∀ c ∈ g.connections.rows, g.carriesData c.toLink = true → ∀ value,
    g.delivery? c.toLink = some value → g.targetValue? c.toLink = some value
  /-- Each pure node that feeds others remembers what its behavior would make of it. -/
  fixed : ∀ id, g.isPure id = true → g.feedsData id = true →
    (g.memory? id).map (g.react id) = g.memory? id

variable {g g' : Graph} {id : NodeId}

/-! ## A refreshed graph is at rest -/

/-- A node without a state of its own answers the same when it is asked again. -/
theorem Stateless.react_react (h : g.Stateless id) (m : Memory) :
    g.react id (g.react id m) = g.react id m := by
  have houtputs : (g.react id (g.react id m)).outputs = (g.react id m).outputs := by
    apply Store.ext_get?
    intro pin
    rcases h.outputs_eq pin with ⟨value, hvalue⟩ | hkept
    · rw [hvalue, hvalue, h.inputs_eq]
    · exact hkept _
  calc
    g.react id (g.react id m)
        = ⟨(g.react id (g.react id m)).inputs, (g.react id (g.react id m)).outputs,
            (g.react id (g.react id m)).locals⟩ := rfl
    _ = ⟨(g.react id m).inputs, (g.react id m).outputs, (g.react id m).locals⟩ := by
        rw [h.inputs_eq (g.react id m), houtputs, h.locals_eq (g.react id m)]
    _ = g.react id m := rfl

theorem PureStateless.keepInputs (h : g.PureStateless) : g.PureKeepInputs :=
  pureKeepInputs_iff.2 fun id hpure => (h id hpure).inputs_eq

/-- A refresh of all values brings a graph to rest. -/
theorem WellFormed.atRest_refreshAll (hwf : g.WellFormed) (hcurrent : g.OrderCurrent)
    (hstateless : g.PureStateless) : g.refreshAll.graph.AtRest := by
  have hskeleton : g.refreshAll.graph.skeleton = g.skeleton := skeleton_sweep g false
  constructor
  · intro c hc hdata value hvalue
    rw [connections_eq_of_skeleton hskeleton] at hc
    rw [carriesData_of_skeleton hskeleton] at hdata
    rw [hwf.delivery?_eq_of_mem hskeleton hc] at hvalue
    have hrefreshed : c ∈ g.refreshed false := mem_refreshed_iff.2 ⟨hc, hdata, nofun⟩
    exact hwf.settled_sweep hcurrent hstateless.keepInputs hrefreshed hvalue
  · intro id hpure hfeeds
    rw [isPure_of_skeleton hskeleton] at hpure
    rw [feedsData_of_skeleton hskeleton] at hfeeds
    have hinvokes : (g.sweepPlan false).invokes id = true :=
      Bool.and_eq_true_iff.2 ⟨hpure, hfeeds⟩
    have hleft : g.refreshAll.graph.memory? id =
        (g.memory? id).map ((g.sweepPlan false).next g.refreshAll.graph id) :=
      hwf.memory?_sweep hcurrent false id
    rw [hleft, Option.map_map]
    congr 1
    funext m
    rw [Function.comp_apply, Plan.next, if_pos hinvokes, funext (react_of_skeleton hskeleton id)]
    exact (hstateless id hpure).react_react _

/-! ## At rest nothing changes -/

/-- Rest depends on nothing but the skeleton and on what nodes remember. -/
theorem AtRest.congr (h : g.AtRest) (hskeleton : g'.skeleton = g.skeleton)
    (hmemory : ∀ id, g'.memory? id = g.memory? id) : g'.AtRest := by
  constructor
  · intro c hc hdata value hvalue
    rw [connections_eq_of_skeleton hskeleton] at hc
    rw [carriesData_of_skeleton hskeleton] at hdata
    rw [delivery?_congr hskeleton (by rw [hmemory])] at hvalue
    rw [targetValue?, hmemory]
    exact h.settled c hc hdata value hvalue
  · intro id hpure hfeeds
    rw [isPure_of_skeleton hskeleton] at hpure
    rw [feedsData_of_skeleton hskeleton] at hfeeds
    rw [hmemory, funext (react_of_skeleton hskeleton id)]
    exact h.fixed id hpure hfeeds

/-- At rest a small change of a refresh leaves alone what nodes remember. -/
theorem AtRest.memory?_change (h : g.AtRest) (hchange : Change g.Refills g g') (id : NodeId) :
    g'.memory? id = g.memory? id := by
  cases hchange with
  | invoke r hmay =>
    obtain ⟨_, hdeed, hpure, hfeeds⟩ := hmay
    cases hdeed
    rw [Run.memory?_invoke]
    split
    next hid => rw [hid, h.fixed _ hpure hfeeds]
    next => rfl
  | copy r hstored hdata =>
    rename_i c
    rw [Run.memory?_copy]
    split
    next hid =>
      cases hm : r.graph.memory? id with
      | none => rfl
      | some m =>
        have hheld : ∀ v, r.graph.delivery? c.toLink = some v →
            m.inputs.get? c.targetPin = some v := by
          intro v hv
          have htarget := h.settled c hstored hdata v hv
          rw [targetValue?, ← hid, hm] at htarget
          exact htarget
        rw [Option.map_some, Memory.receive_eq_self hheld]
    next => rfl
  | put g index value hmay =>
    obtain ⟨_, hdeed, -⟩ := hmay
    cases hdeed
  | mark g active hmay =>
    obtain ⟨_, hdeed, -⟩ := hmay
    cases hdeed
  | know => rfl

theorem AtRest.memory?_changes (h : g.AtRest) (hchanges : Changes g.Refills g g') (id : NodeId) :
    g'.memory? id = g.memory? id := by
  have hkept : ∀ id, g'.memory? id = g.memory? id := by
    apply hchanges.invariant (P := fun g₁ => ∀ id, g₁.memory? id = g.memory? id)
    · intro g₁ g₂ hskeleton hchange hsame id
      have hrefills : g.Refills = g₁.Refills := by
        funext deed
        simp only [Refills, isPure_of_skeleton hskeleton, feedsData_of_skeleton hskeleton]
      rw [hrefills] at hchange
      rw [(h.congr hskeleton hsame).memory?_change hchange, hsame]
    · exact fun _ => rfl
  exact hkept id

/-- What the inputs of a node depend on feeds others. -/
theorem feedsData_of_mem_dependencies {target : NodeId} (hid : id ∈ g.dependencies target)
    (hne : id ≠ target) : g.feedsData id = true := by
  rcases (mem_dependencies_iff.1 hid).cases_head with heq | ⟨_, hneeds, -⟩
  · exact absurd heq hne
  · exact hneeds.2.feedsData

/-- Every call that refreshes values is made of small changes. -/
theorem changes_of_pulls {operation : Operation} (h : operation.Pulls) (g : Graph) :
    Changes g.Refills g (operation.apply g) := by
  have hrefills : ∀ id, g.isPure id = true → g.feedsData id = true → g.Refills (.invoke id) :=
    fun id hpure hfeeds => ⟨id, rfl, hpure, hfeeds⟩
  have hinputs : ∀ target, Changes g.Refills g (g.refreshInputs target).graph := by
    intro target
    apply Run.changes_refreshInputs { graph := g }
    intro id hid hne hpure
    exact hrefills id hpure (feedsData_of_mem_dependencies hid hne)
  have hconnection : ∀ id, Changes g.Refills g (g.refreshConnection id).graph :=
    fun id => Run.changes_refreshConnection (r := { graph := g }) hrefills id
  cases operation with
  | refreshPure => exact changes_sweep hrefills true
  | refreshAll => exact changes_sweep hrefills false
  | refreshConnection id => exact hconnection id
  | refreshInputs node => exact hinputs node
  | perform command =>
    cases command with
    | refreshPure => exact changes_sweep hrefills true
    | refreshAll => exact changes_sweep hrefills false
    | refreshConnection id => exact hconnection id
    | refreshInputs node =>
      rw [Operation.apply, perform]
      split
      · exact hinputs node
      · exact .refl g
    | execute => cases h
  | _ => cases h

/-- At rest any number of refreshes, of whatever kind and in whatever order, leave alone what
nodes remember, by induction on the calls. -/
theorem AtRest.memory?_pulls (h : g.AtRest) {pulls : List Operation}
    (hpulls : ∀ pull ∈ pulls, pull.Pulls) (id : NodeId) :
    (pulls.foldl Operation.apply g).memory? id = g.memory? id := by
  induction pulls generalizing g with
  | nil => rfl
  | cons pull pulls ih =>
    have hfirst := changes_of_pulls (hpulls pull List.mem_cons_self) g
    have hrest : (pull.apply g).AtRest := h.congr hfirst.skeleton (h.memory?_changes hfirst)
    have hlater : ∀ later ∈ pulls, later.Pulls :=
      fun later hmem => hpulls later (List.mem_cons_of_mem pull hmem)
    rw [List.foldl_cons, ih hrest hlater, h.memory?_changes hfirst]

/-- Once all values of a well-formed graph have been refreshed, and if no pure node has a state
of its own, no sequence of refreshes changes the inputs, outputs or locals of any node.  That
the known order is current is no restriction on graphs that arise from operations. -/
theorem refreshAll_absorbs_pulls (hwf : g.WellFormed) (hcurrent : g.OrderCurrent)
    (hstateless : g.PureStateless) {pulls : List Operation} (hpulls : ∀ pull ∈ pulls, pull.Pulls)
    (id : NodeId) :
    (pulls.foldl Operation.apply g.refreshAll.graph).memory? id =
      g.refreshAll.graph.memory? id :=
  (hwf.atRest_refreshAll hcurrent hstateless).memory?_pulls hpulls id

/-- In the graph to look at, the first refresh brings a number to the loop, and later ones
change nothing there. -/
theorem refreshAll_absorbs_pulls_starting :
    starting.WellFormed ∧ starting.OrderCurrent ∧
      starting.memory? ⟨2⟩ ≠ starting.refreshAll.graph.memory? ⟨2⟩ ∧
      ([.refreshInputs ⟨2⟩, .refreshPure, .refreshConnection ⟨1⟩, .refreshAll].foldl
        Operation.apply starting.refreshAll.graph).memory? ⟨2⟩ =
          starting.refreshAll.graph.memory? ⟨2⟩ := by
  have hwf : starting.WellFormed := by decide
  have hcurrent : starting.OrderCurrent := by
    intro order horder
    cases horder
  have hpulls : ∀ pull ∈ [Operation.refreshInputs ⟨2⟩, .refreshPure, .refreshConnection ⟨1⟩,
      .refreshAll], pull.Pulls :=
    List.forall_iff_forall_mem.1 ⟨trivial, trivial, trivial, trivial⟩
  exact ⟨hwf, hcurrent, by decide,
    refreshAll_absorbs_pulls hwf hcurrent pureStateless_starting hpulls ⟨2⟩⟩

end Graph

end FlowGraph
