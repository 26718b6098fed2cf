import FlowGraph.Proofs.Chronology
import FlowGraph.Proofs.Pass

/-!
# Calls that are refused or find nothing to do

A call answers with a result and with the journal of what it has done.  Some results say that
the call was refused, and some that there was nothing to do.  After such a call the graph is
the very one that it was before, with the data order that was known and the node id that comes
next, and nothing has been invoked or copied.  So a run is the same without such calls,
wherever they stand in it.
-/

namespace FlowGraph

/-- What a call answers. -/
inductive Answer where
  | done
  | created (result : Except SpecError NodeId)
  | spawned (result : Except CatalogError NodeId)
  | connected (result : Except Refusal ConnectionId)
  | disconnected (connection : Option Connection)
  | removed (node : Option Node)
  | count (connections : Nat)
  | valid (sound : Bool)
  | order (nodes : List NodeId)
  | performed (result : Except ExecutionError Unit)
  | fired (found : Bool)
  | invoked (found : Bool)

/-- An answer that says that the call was refused, or that there was nothing to do. -/
def Answer.isVain : Answer → Bool
  | spawned (.error (.unknownKey _)) => true
  | connected result => !result.isOk
  | disconnected connection => connection.isNone
  | removed node => node.isNone
  | count connections => connections == 0
  | performed result => !result.isOk
  | fired found => !found
  | invoked found => !found
  | _ => false

def Outcome.map {α β : Type} (f : α → β) (o : Outcome α) : Outcome β := o.toRun.answer (f o.result)

namespace Operation

/-- The whole outcome of a call. -/
def respond (g : Graph) : Operation → Outcome Answer
  | addNode spec => (g.addNode spec).map .created
  | spawn catalog key => (catalog.spawn g key).map .spawned
  | connect id l => (g.connect id l).map .connected
  | restore c => { graph := g.restore c, result := .done }
  | disconnect id => { graph := (g.disconnect id).1, result := .disconnected (g.disconnect id).2 }
  | disconnectNode node => (g.disconnectNode node).map .count
  | disconnectPin node pin side => (g.disconnectPin node pin side).map .count
  | removeNode node => (g.removeNode node).map .removed
  | validate => g.validate.map .valid
  | cleanup => g.cleanup.map .count
  | knowOrder => g.knowOrder.map .order
  | refreshPure => g.refreshPure.answer .done
  | refreshAll => g.refreshAll.answer .done
  | refreshConnection id => (g.refreshConnection id).answer .done
  | refreshInputs node => (g.refreshInputs node).answer .done
  | perform command => (g.perform command).map .performed
  | execute start => (g.execute start).map .performed
  | fire title => (g.fire title).map .fired
  | fireStart => g.fireStart.map .fired
  | fireTick => g.fireTick.map .fired
  | rename name => { graph := g.rename name, result := .done }
  | setSettings settings => { graph := g.setSettings settings, result := .done }
  | setTitle node title => { graph := g.setTitle node title, result := .done }
  | setCategory node category => { graph := g.setCategory node category, result := .done }
  | setInput node pin value => { graph := g.setInput node pin value, result := .done }
  | setOutput node pin value => { graph := g.setOutput node pin value, result := .done }
  | invoke node => (g.invoke node).map .invoked

/-- The connection that a call is to refresh alone. -/
def refreshed? : Operation → Option ConnectionId
  | refreshConnection id => some id
  | perform (.refreshConnection id) => some id
  | _ => none

/-- A call in vain: its answer says so, or the connection that it is to refresh does not exist
or carries no data. -/
def inVain (g : Graph) (operation : Operation) : Bool :=
  (operation.respond g).result.isVain ||
    operation.refreshed?.any fun id => (g.connection? id).all fun c => !g.carriesData c.toLink

end Operation

@[simp]
theorem Operation.graph_respond (g : Graph) (operation : Operation) :
    (operation.respond g).graph = operation.apply g := by
  cases operation <;> rfl

/-- A run that has left a graph as it was and made no move. -/
structure Run.Idle (r : Run) (g : Graph) : Prop where
  graph : r.graph = g
  moves : r.moves = []

namespace Graph

/-- The outcomes of a number of calls, one after the other. -/
def outcomes (g : Graph) : List Operation → List (Outcome Answer)
  | [] => []
  | operation :: operations => operation.respond g :: (operation.apply g).outcomes operations

/-- The calls of a run that satisfy a condition on the graph at that moment and the call, each
with its outcome. -/
def kept (g : Graph) (p : Graph → Operation → Bool) :
    List Operation → List (Operation × Outcome Answer)
  | [] => []
  | operation :: operations =>
    let rest := (operation.apply g).kept p operations
    if p g operation then (operation, operation.respond g) :: rest else rest

/-- What is left of a run without the calls in vain. -/
def effective (g : Graph) (operations : List Operation) : List (Operation × Outcome Answer) :=
  g.kept (fun g operation => !operation.inVain g) operations

variable {g : Graph} {p : Graph → Operation → Bool} {operation : Operation} {id : ConnectionId}
  {node : NodeId} {l : Link} {title key : String} {catalog : Catalog}

/-! ## Single calls -/

theorem carriesData_eq_false_of_carriesExec (h : g.carriesExec l = true) :
    g.carriesData l = false := by
  rw [carriesExec] at h
  rw [carriesData]
  cases hpin : g.sourcePin? l with
  | none => rfl
  | some pin =>
    rw [hpin, Option.any_some] at h
    have hexec : pin.cls = .exec := beq_iff_eq.1 h
    rw [Option.any_some, Pin.isData, hexec]
    rfl

theorem idle_connect (h : (g.connect id l).result.isOk = false) :
    (g.connect id l).toRun.Idle g := by
  cases hcheck : g.check l with
  | error refusal =>
    rw [connect, hcheck]
    exact ⟨rfl, rfl⟩
  | ok =>
    rw [(connect_of_admitted id hcheck).2] at h
    cases h

theorem idle_disconnectWhere {p : Connection → Bool} (h : (g.disconnectWhere p).result = 0) :
    (g.disconnectWhere p).toRun.Idle g := by
  rw [result_disconnectWhere, List.countP_eq_length_filter, List.length_eq_zero_iff] at h
  rw [disconnectWhere, h]
  exact ⟨rfl, rfl⟩

theorem idle_cleanup (h : g.cleanup.result = 0) : g.cleanup.toRun.Idle g := by
  rw [result_cleanup, List.length_eq_zero_iff] at h
  rw [cleanup, h]
  exact ⟨rfl, rfl⟩

theorem disconnect_of_none (h : (g.disconnect id).2 = none) : (g.disconnect id).1 = g := by
  rw [result_disconnect] at h
  rw [disconnect, h]

theorem idle_removeNode (h : (g.removeNode node).result = none) :
    (g.removeNode node).toRun.Idle g := by
  cases hlive : g.hasNode node with
  | false =>
    rw [removeNode, hlive]
    exact ⟨rfl, rfl⟩
  | true =>
    have hkept : (g.disconnectNode node).graph.hasNode node = g.hasNode node :=
      hasNode_of_skeleton (skeleton_disconnectWhere g _) node
    rw [removeNode, if_pos hlive] at h
    have hgone : (g.disconnectNode node).graph.node? node = none := h
    rw [hlive, hasNode, hgone] at hkept
    cases hkept

theorem idle_execute (h : (g.execute node).result.isOk = false) :
    (g.execute node).toRun.Idle g := by
  rw [execute] at h ⊢
  cases hrun : Run.execute { graph := g } node with
  | ok run =>
    rw [hrun] at h
    cases h
  | error => exact ⟨rfl, rfl⟩

theorem idle_perform {command : Command} (h : (g.perform command).result.isOk = false) :
    (g.perform command).toRun.Idle g := by
  cases command with
  | refreshPure => cases h
  | refreshAll => cases h
  | refreshConnection id => cases h
  | refreshInputs target =>
    rw [perform] at h ⊢
    split at h
    next => cases h
    next hmissing =>
      rw [if_neg hmissing]
      exact ⟨rfl, rfl⟩
  | execute start => exact idle_execute h

theorem idle_fire (h : (g.fire title).result = false) : (g.fire title).toRun.Idle g := by
  cases hfound : g.findTitle? title with
  | none =>
    rw [fire, hfound]
    exact ⟨rfl, rfl⟩
  | some entry =>
    rw [fire, hfound] at h
    dsimp only at h
    split at h <;> cases h

theorem idle_invoke (h : (g.invoke node).result = false) : (g.invoke node).toRun.Idle g := by
  have hmissing : g.node? node = none :=
    Option.isNone_iff_eq_none.1 (Option.isSome_eq_false_iff.1 h)
  rw [invoke, Run.invoke, hmissing]
  exact ⟨rfl, rfl⟩

theorem idle_refreshConnection
    (h : (g.connection? id).all (fun c => !g.carriesData c.toLink) = true) :
    (g.refreshConnection id).Idle g := by
  rw [refreshConnection, Run.refreshConnection]
  cases hc : g.connection? id with
  | none => exact ⟨rfl, rfl⟩
  | some c =>
    rw [hc, Option.all_some, Bool.not_eq_true'] at h
    dsimp only
    rw [h]
    exact ⟨rfl, rfl⟩

theorem idle_spawn (h : (Answer.spawned (catalog.spawn g key).result).isVain = true) :
    (catalog.spawn g key).toRun.Idle g := by
  cases htemplate : catalog.get? key with
  | none =>
    rw [Catalog.spawn, htemplate]
    exact ⟨rfl, rfl⟩
  | some t =>
    have hresult : (catalog.spawn g key).result =
        (g.addNode t.toSpec).result.mapError CatalogError.invalid := by
      rw [Catalog.spawn, htemplate]
      rfl
    rw [hresult] at h
    cases hcreated : (g.addNode t.toSpec).result with
    | ok => rw [hcreated] at h; cases h
    | error => rw [hcreated] at h; cases h

/-! ## Any call -/

/-- A call that answers that it was in vain. -/
theorem idle_of_isVain (h : (operation.respond g).result.isVain = true) :
    (operation.respond g).toRun.Idle g := by
  cases operation with
  | spawn catalog key => exact idle_spawn h
  | connect id l => exact idle_connect ((Bool.not_eq_true' _).mp h)
  | disconnect id => exact ⟨disconnect_of_none (Option.isNone_iff_eq_none.1 h), rfl⟩
  | disconnectNode node => exact idle_disconnectWhere (beq_iff_eq.1 h)
  | disconnectPin node pin side => exact idle_disconnectWhere (beq_iff_eq.1 h)
  | removeNode node => exact idle_removeNode (Option.isNone_iff_eq_none.1 h)
  | cleanup => exact idle_cleanup (beq_iff_eq.1 h)
  | perform command => exact idle_perform ((Bool.not_eq_true' _).mp h)
  | execute start => exact idle_execute ((Bool.not_eq_true' _).mp h)
  | fire title => exact idle_fire ((Bool.not_eq_true' _).mp h)
  | fireStart => exact idle_fire ((Bool.not_eq_true' _).mp h)
  | fireTick => exact idle_fire ((Bool.not_eq_true' _).mp h)
  | invoke node => exact idle_invoke ((Bool.not_eq_true' _).mp h)
  | _ => cases h

theorem idle_of_inVain (h : operation.inVain g = true) : (operation.respond g).toRun.Idle g := by
  rcases (Bool.or_eq_true _ _).mp h with hvain | hrefreshed
  · exact idle_of_isVain hvain
  · cases operation with
    | refreshConnection id => exact idle_refreshConnection hrefreshed
    | perform command =>
      cases command with
      | refreshConnection id => exact idle_refreshConnection hrefreshed
      | _ => cases hrefreshed
    | _ => cases hrefreshed

/-- A call that is refused or finds nothing to do leaves the whole graph as it was, well formed
or not, and nothing is invoked or copied. -/
theorem inVain_leaves_no_trace (h : operation.inVain g = true) :
    operation.apply g = g ∧ (operation.respond g).moves = [] := by
  obtain ⟨hgraph, hmoves⟩ := idle_of_inVain h
  rw [Operation.graph_respond] at hgraph
  exact ⟨hgraph, hmoves⟩

/-- A link into an input that is taken is refused, and there is no event with an unknown
title.  A connection that leaves an exec output has nothing to copy. -/
theorem inVain_leaves_no_trace_counting :
    counting.carriesExec ⟨⟨0⟩, 0, ⟨1⟩, 0⟩ = true ∧
      (Operation.refreshConnection ⟨0⟩).apply counting = counting ∧
      (Operation.connect ⟨2⟩ ⟨⟨0⟩, 0, ⟨2⟩, 0⟩).apply counting = counting ∧
      ((Operation.fire "On Stop").respond counting).moves = [] :=
  ⟨by decide, (inVain_leaves_no_trace (by decide)).1, (inVain_leaves_no_trace (by decide)).1,
    (inVain_leaves_no_trace (by decide)).2⟩

/-! ## Whole runs -/

theorem kept_cons_of_true (h : p g operation = true) (operations : List Operation) :
    g.kept p (operation :: operations) =
      (operation, operation.respond g) :: (operation.apply g).kept p operations :=
  if_pos h

theorem kept_cons_of_false (h : p g operation = false) (operations : List Operation) :
    g.kept p (operation :: operations) = (operation.apply g).kept p operations :=
  if_neg (ne_true_of_eq_false h)

/-- A run from which the calls in vain are left out ends with the same graph, and the other
calls have the same outcomes. -/
theorem after_effective (g : Graph) (operations : List Operation) :
    g.after ((g.effective operations).map Prod.fst) = g.after operations ∧
      g.outcomes ((g.effective operations).map Prod.fst) =
        (g.effective operations).map Prod.snd := by
  induction operations generalizing g with
  | nil => exact ⟨rfl, rfl⟩
  | cons operation operations ih =>
    have hafter : g.after (operation :: operations) = (operation.apply g).after operations := rfl
    obtain ⟨hgraph, houtcomes⟩ := ih (operation.apply g)
    rw [effective] at hgraph houtcomes ⊢
    cases hvain : operation.inVain g with
    | true =>
      have hidle : operation.apply g = g := by
        rw [← Operation.graph_respond]
        exact (idle_of_inVain hvain).graph
      rw [hidle] at hgraph houtcomes hafter
      rw [kept_cons_of_false (by rw [hvain]; rfl), hafter, hidle]
      exact ⟨hgraph, houtcomes⟩
    | false =>
      rw [kept_cons_of_true (by rw [hvain]; rfl)]
      exact ⟨hgraph, congrArg _ houtcomes⟩

end Graph

end FlowGraph
