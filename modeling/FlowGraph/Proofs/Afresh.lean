import FlowGraph.Proofs.Audit
import FlowGraph.Proofs.KnownOrder

/-!
# Keeping the data order makes no difference

An engine that keeps no data order calculates it anew whenever it is needed.  What is kept
is the present order, so both engines go through the nodes in the same order, and apart from
the calculations themselves they do the same at every call.
-/

namespace FlowGraph

/-- An event is the calculation of a data order. -/
def Event.isOrdering : Event → Bool
  | .dataOrdered _ => true
  | _ => false

/-- The graph without a known data order. -/
def Graph.forget (g : Graph) : Graph := g.knowing none

/-- Two runs differ at most in the data orders that are known and calculated. -/
structure Run.Agrees (r r' : Run) : Prop where
  graph : r.graph.forget = r'.graph.forget
  stats : r.stats = r'.stats
  events : (r.events.filter fun e => !e.isOrdering) = r'.events.filter fun e => !e.isOrdering

/-- Two calls are answered alike, and their runs agree. -/
structure Outcome.Agrees {α : Type} (o o' : Outcome α) : Prop where
  run : o.toRun.Agrees o'.toRun
  result : o.result = o'.result

/-- A call in an engine that keeps no data order from one call to the next. -/
def Operation.applyAfresh (g : Graph) (operation : Operation) : Graph := operation.apply g.forget

variable {known : Option (List NodeId)} {past : List Event}

namespace Run

/-- Calculations of orders are not counted. -/
theorem stats_recast (hpast : ∀ e ∈ past, e.isOrdering = true) (r : Run) :
    (r.recast known past).stats = r.stats := by
  have hnone : ∀ p : Event → Bool, (∀ n, p (.dataOrdered n) = false) → past.countP p = 0 := by
    intro p hp
    apply List.countP_eq_zero.2
    intro e he
    have hordering := hpast e he
    cases e <;> simp_all [Event.isOrdering]
  simp only [stats, Stats.ofEvents, recast, List.countP_append]
  rw [hnone Event.isInvocation fun _ => rfl, hnone Event.isCopy fun _ => rfl]
  rfl

theorem agrees_recast (hpast : ∀ e ∈ past, e.isOrdering = true) (r : Run) :
    r.Agrees (r.recast known past) where
  graph := rfl
  stats := (stats_recast hpast r).symm
  events := by
    have hnone : (past.reverse.filter fun e => !e.isOrdering) = [] := by
      apply List.filter_eq_nil_iff.2
      intro e he
      rw [hpast e (List.mem_reverse.1 he)]
      decide
    rw [events, events, recast, List.reverse_append, List.filter_append, hnone, List.nil_append]

end Run

namespace Graph

variable {g : Graph}

/-! ## One call -/

/-- Besides the calculation of the order, a pass over the graph does the same. -/
theorem OrderCurrent.sweep_forget (h : g.OrderCurrent) (pureOnly : Bool) :
    ∃ known past, (∀ e ∈ past, e.isOrdering = true) ∧
      g.forget.sweep pureOnly = (g.sweep pureOnly).recast known past := by
  cases hknown : g.knownOrder with
  | none =>
    have hforget : g.forget = g := by
      rw [forget, knowing, ← hknown]
    refine ⟨(g.sweep pureOnly).graph.knownOrder, [], by simp, ?_⟩
    rw [hforget, Run.recast_self]
  | some order =>
    obtain rfl := h order hknown
    have hpast : ∀ e ∈ [Event.dataOrdered g.dataOrder.length], e.isOrdering = true := by
      simp [Event.isOrdering]
    have hkept : g.knowOrder = { graph := g, result := g.dataOrder } := by
      rw [Graph.knowOrder, hknown]
    have hforgotten : g.forget.knowOrder =
        { toRun := Run.recast { graph := g } (some g.dataOrder) [.dataOrdered g.dataOrder.length]
          result := g.dataOrder } :=
      rfl
    refine ⟨some g.dataOrder, [.dataOrdered g.dataOrder.length], hpast, ?_⟩
    rw [Graph.sweep, Graph.sweep, hforgotten, hkept]
    dsimp only
    rw [Run.recast_foldl (Run.recast_refreshNode pureOnly), Run.stats_recast hpast]
    rfl

theorem OrderCurrent.fire_forget (h : g.OrderCurrent) (title : String) :
    ∃ known past, (∀ e ∈ past, e.isOrdering = true) ∧
      g.forget.fire title =
        ((g.fire title).toRun.recast known past).answer (g.fire title).result := by
  have htitle : g.forget.findTitle? title = g.findTitle? title := rfl
  rw [Graph.fire, Graph.fire, htitle]
  cases g.findTitle? title with
  | none => exact ⟨none, [], by simp, rfl⟩
  | some entry =>
    obtain ⟨known, past, hpast, hrefreshed⟩ : ∃ known past, (∀ e ∈ past, e.isOrdering = true) ∧
        (if g.settings.refreshesFirst then g.forget.refreshAll else { graph := g.forget }) =
          Run.recast (if g.settings.refreshesFirst then g.refreshAll else { graph := g })
            known past := by
      split
      · exact h.sweep_forget false
      · exact ⟨none, [], by simp, rfl⟩
    refine ⟨known, past, hpast, ?_⟩
    have hsettings : g.forget.settings = g.settings := rfl
    simp only [hsettings, hrefreshed, Run.recast_execute]
    cases Run.execute (if g.settings.refreshesFirst then g.refreshAll else { graph := g }) entry <;>
      rfl

theorem OrderCurrent.sweep_agrees (h : g.OrderCurrent) (pureOnly : Bool) :
    (g.sweep pureOnly).Agrees (g.forget.sweep pureOnly) := by
  obtain ⟨known, past, hpast, heq⟩ := h.sweep_forget pureOnly
  rw [heq]
  exact Run.agrees_recast hpast _

theorem OrderCurrent.fire_agrees (h : g.OrderCurrent) (title : String) :
    (g.fire title).Agrees (g.forget.fire title) := by
  obtain ⟨known, past, hpast, heq⟩ := h.fire_forget title
  rw [heq]
  exact ⟨Run.agrees_recast hpast _, rfl⟩

/-! ## Any call -/

/-- What does the same whatever order is known does the same without one. -/
theorem forget_of_recast {f : Run → Run}
    (hf : ∀ r known past, f (r.recast known past) = (f r).recast known past) (g : Graph) :
    (f { graph := g.forget }).graph.forget = (f { graph := g }).graph.forget := by
  have hstart : ({ graph := g.forget } : Run) = Run.recast { graph := g } none [] := rfl
  rw [hstart, hf]
  rfl

theorem forget_execute (g : Graph) (start : NodeId) :
    (g.forget.execute start).graph.forget = (g.execute start).graph.forget := by
  have hstart : ({ graph := g.forget } : Run) = Run.recast { graph := g } none [] := rfl
  rw [Graph.execute, hstart, Run.recast_execute, Graph.execute]
  cases Run.execute { graph := g } start <;> rfl

theorem forget_refreshConnection (g : Graph) (id : ConnectionId) :
    (g.forget.refreshConnection id).graph.forget = (g.refreshConnection id).graph.forget :=
  forget_of_recast (f := fun r => r.refreshConnection id)
    (fun r _ _ => Run.recast_refreshConnection r id) g

theorem forget_refreshInputs (g : Graph) (target : NodeId) :
    (g.forget.refreshInputs target).graph.forget = (g.refreshInputs target).graph.forget :=
  forget_of_recast (f := fun r => r.refreshInputs target)
    (fun r _ _ => Run.recast_refreshInputs r target) g

theorem OrderCurrent.forget_perform (h : g.OrderCurrent) (command : Command) :
    (g.forget.perform command).graph.forget = (g.perform command).graph.forget := by
  cases command with
  | refreshPure => exact (h.sweep_agrees true).graph.symm
  | refreshAll => exact (h.sweep_agrees false).graph.symm
  | refreshConnection id => exact forget_refreshConnection g id
  | refreshInputs node =>
    have hlive : g.forget.hasNode node = g.hasNode node := rfl
    rw [Graph.perform, Graph.perform, hlive]
    split
    · exact forget_refreshInputs g node
    · rfl
  | execute node => exact forget_execute g node

theorem forget_addNode (g : Graph) (spec : NodeSpec) :
    (g.forget.addNode spec).graph.forget = (g.addNode spec).graph.forget := by
  have hnext : g.forget.nextId = g.nextId := rfl
  rw [Graph.addNode, Graph.addNode, hnext]
  cases Node.ofSpec ⟨g.nextId⟩ spec <;> rfl

theorem forget_disconnectWhere (g : Graph) (p : Connection → Bool) :
    (g.forget.disconnectWhere p).graph.forget = (g.disconnectWhere p).graph.forget := by
  have hconnections : g.forget.connections = g.connections := rfl
  rw [Graph.disconnectWhere, Graph.disconnectWhere, hconnections]
  dsimp only
  split <;> rfl

/-- At every call it does not matter whether the order has been forgotten. -/
theorem OrderCurrent.forget_apply (h : g.OrderCurrent) (operation : Operation) :
    (operation.apply g.forget).forget = (operation.apply g).forget := by
  cases operation with
  | addNode spec => exact forget_addNode g spec
  | spawn catalog key =>
    rw [Operation.apply, Operation.apply, Catalog.spawn, Catalog.spawn]
    cases catalog.get? key with
    | none => rfl
    | some template => exact forget_addNode g template.toSpec
  | connect id l =>
    have hcheck : g.forget.check l = g.check l := rfl
    rw [Operation.apply, Operation.apply, Graph.connect, Graph.connect, hcheck]
    cases g.check l <;> rfl
  | restore c => rfl
  | disconnect id =>
    have hconnection : g.forget.connection? id = g.connection? id := rfl
    rw [Operation.apply, Operation.apply, Graph.disconnect, Graph.disconnect, hconnection]
    cases g.connection? id <;> rfl
  | disconnectNode node => exact forget_disconnectWhere g _
  | disconnectPin node pin side => exact forget_disconnectWhere g _
  | removeNode node =>
    have hlive : g.forget.hasNode node = g.hasNode node := rfl
    rw [Operation.apply, Operation.apply, Graph.removeNode, Graph.removeNode, hlive]
    split
    · exact congrArg (fun g : Graph => { g with nodes := g.nodes.erase node })
        (forget_disconnectWhere g _)
    · rfl
  | validate => rfl
  | cleanup =>
    have hnodes : ∀ id, g.forget.node? id = g.node? id := fun _ => rfl
    have hviolations : g.forget.violations = g.violations := violationsAmong_congr hnodes [] _
    rw [Operation.apply, Operation.apply, Graph.cleanup, Graph.cleanup, hviolations]
    dsimp only
    split
    · rfl
    · exact forget_disconnectWhere g _
  | knowOrder =>
    rw [Operation.apply, Operation.apply, Graph.knowOrder, Graph.knowOrder]
    cases g.knownOrder <;> rfl
  | refreshPure => exact (h.sweep_agrees true).graph.symm
  | refreshAll => exact (h.sweep_agrees false).graph.symm
  | refreshConnection id => exact forget_refreshConnection g id
  | refreshInputs node => exact forget_refreshInputs g node
  | perform command => exact h.forget_perform command
  | execute start => exact forget_execute g start
  | fire title => exact (h.fire_agrees title).run.graph.symm
  | fireStart => exact (h.fire_agrees _).run.graph.symm
  | fireTick => exact (h.fire_agrees _).run.graph.symm
  | rename name => rfl
  | setSettings settings => rfl
  | setTitle node title => rfl
  | setCategory node category => rfl
  | setInput node pin value => rfl
  | setOutput node pin value => rfl
  | invoke node =>
    exact forget_of_recast (f := fun r => r.invoke node) (fun r _ _ => Run.recast_invoke r node) g

/-! ## Runs of operations -/

/-- Two engines have come to the same graph, one that keeps the data order and one that does
not, and both go on alike. -/
structure Alike (g afresh : Graph) : Prop where
  known : g.knownOrder = none ∨ g.knownOrder = some g.dataOrder
  graph : g.forget = afresh.forget
  refreshPure : g.refreshPure.Agrees afresh.forget.refreshPure
  refreshAll : g.refreshAll.Agrees afresh.forget.refreshAll
  fireStart : g.fireStart.Agrees afresh.forget.fireStart
  fireTick : g.fireTick.Agrees afresh.forget.fireTick

theorem OrderCurrent.alike {afresh : Graph} (h : g.OrderCurrent)
    (hsame : g.forget = afresh.forget) : g.Alike afresh where
  known := by
    cases hknown : g.knownOrder with
    | none => exact .inl rfl
    | some order => exact .inr (congrArg some (h order hknown))
  graph := hsame
  refreshPure := hsame ▸ h.sweep_agrees true
  refreshAll := hsame ▸ h.sweep_agrees false
  fireStart := hsame ▸ h.fire_agrees g.settings.startTitle
  fireTick := hsame ▸ h.fire_agrees g.settings.tickTitle

/-- The two engines stay together. -/
theorem OrderCurrent.alike_foldl {afresh : Graph} (h : g.OrderCurrent)
    (hsame : g.forget = afresh.forget) (operations : List Operation) :
    (operations.foldl Operation.apply g).Alike (operations.foldl Operation.applyAfresh afresh) := by
  induction operations generalizing g afresh with
  | nil => exact h.alike hsame
  | cons operation operations ih =>
    apply ih (h.apply operation)
    rw [Operation.applyAfresh, ← hsame]
    exact (h.forget_apply operation).symm

/-- Whatever operations are made on an empty graph, unchecked and failing ones included, the
data order that it keeps is the order of its present structure, and keeping it makes no
difference to the graph, to what a call does or to its answer. -/
theorem keeping_order_makes_no_difference (name : String) (settings : Settings)
    (operations : List Operation) :
    (operations.foldl Operation.apply { name := name, settings := settings }).Alike
      (operations.foldl Operation.applyAfresh { name := name, settings := settings }) :=
  OrderCurrent.alike_foldl (.of_none rfl) rfl operations

end Graph

end FlowGraph
