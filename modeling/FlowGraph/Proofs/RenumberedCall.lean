import FlowGraph.Proofs.Refusal
import FlowGraph.Proofs.RenumberedExecution

/-!
# Calls under other numbers

Whatever a call does to a graph, the same call under the new ids does to the graph with the new
ids: it has the same answer and the same journal, with the new ids in them.  The one thing that
depends on the number of a node is which id the next node gets.
-/

namespace FlowGraph

variable (ρ : Equiv.Perm NodeId) (next : Nat)

def Answer.renumber : Answer → Answer
  | done => done
  | created result => created (result.map ρ)
  | spawned result => spawned (result.map ρ)
  | connected result => connected (result.mapError (Refusal.renumber ρ))
  | disconnected connection => disconnected (connection.map (Connection.renumber ρ))
  | removed node => removed (node.map (Node.renumber ρ))
  | count connections => count connections
  | valid sound => valid sound
  | order nodes => order (nodes.map ρ)
  | performed result => performed (result.mapError (ExecutionError.renumber ρ))
  | fired found => fired found
  | invoked found => invoked found

def Operation.renumber : Operation → Operation
  | addNode spec => addNode (spec.renumber ρ)
  | spawn catalog key => spawn (catalog.renumber ρ) key
  | connect id l => connect id (l.renumber ρ)
  | restore c => restore (c.renumber ρ)
  | disconnect id => disconnect id
  | disconnectNode node => disconnectNode (ρ node)
  | disconnectPin node pin side => disconnectPin (ρ node) pin side
  | removeNode node => removeNode (ρ node)
  | validate => validate
  | cleanup => cleanup
  | knowOrder => knowOrder
  | refreshPure => refreshPure
  | refreshAll => refreshAll
  | refreshConnection id => refreshConnection id
  | refreshInputs node => refreshInputs (ρ node)
  | perform command => perform (command.renumber ρ)
  | execute start => execute (ρ start)
  | fire title => fire title
  | fireStart => fireStart
  | fireTick => fireTick
  | rename name => rename name
  | setSettings settings => setSettings settings
  | setTitle node title => setTitle (ρ node) title
  | setCategory node category => setCategory (ρ node) category
  | setInput node pin value => setInput (ρ node) pin value
  | setOutput node pin value => setOutput (ρ node) pin value
  | invoke node => invoke (ρ node)

namespace Graph

variable (g : Graph)

/-! ## Building -/

theorem closesCycle_renumber (source target : NodeId) :
    (g.renumber ρ next).closesCycle (ρ source) (ρ target) = g.closesCycle source target := by
  rw [closesCycle, rows_connections_renumber, Adjacency.pathExists_renumber, closesCycle]

theorem check_renumber (l : Link) :
    (g.renumber ρ next).check (l.renumber ρ) = (g.check l).mapError (Refusal.renumber ρ) := by
  simp only [check, Link.renumber, node?_renumber, isConnected_renumber, closesCycle_renumber,
    ρ.apply_eq_iff_eq]
  cases g.node? l.source with
  | none => rfl
  | some source =>
    cases g.node? l.target with
    | none => rfl
    | some target =>
      have houtput : (source.renumber ρ).output? l.sourcePin = source.output? l.sourcePin := rfl
      have hinput : (target.renumber ρ).input? l.targetPin = target.input? l.targetPin := rfl
      simp only [Option.map_some, houtput, hinput]
      cases source.output? l.sourcePin with
      | none => rfl
      | some sourcePin =>
        cases target.input? l.targetPin with
        | none => rfl
        | some targetPin =>
          dsimp only
          split
          · rfl
          · split
            · rfl
            · split
              · rfl
              · split <;> rfl

/-- The graph with other connections. -/
theorem reconnect_renumber {connections connections' : Table Connection.id}
    (h : connections' =
      connections.rekey (Connection.renumber ρ) (.refl _) (Connection.id_renumber ρ)) :
    { g.renumber ρ next with connections := connections', knownOrder := none } =
      { g with connections := connections, knownOrder := none }.renumber ρ next := by
  rw [h]
  rfl

theorem restore_renumber (c : Connection) :
    (g.renumber ρ next).restore (c.renumber ρ) = (g.restore c).renumber ρ next :=
  g.reconnect_renumber ρ next (Table.put_rekey (Connection.id_renumber ρ) g.connections c)

theorem connect_renumber (id : ConnectionId) (l : Link) :
    (g.renumber ρ next).connect id (l.renumber ρ) =
      (g.connect id l).renumber ρ next (Except.mapError (Refusal.renumber ρ)) := by
  rw [connect, connect, check_renumber]
  cases g.check l with
  | error refusal => rfl
  | ok =>
    have hstored := g.restore_renumber ρ next ⟨l, id⟩
    have hrefreshed := Run.refreshConnection_renumber ρ next
      { graph := g.restore ⟨l, id⟩, journal := [.connected l] } id
    rw [Run.renumber, ← hstored] at hrefreshed
    exact congrArg (Run.answer · _) hrefreshed

/-- A new node gets the id that corresponds to its old one, if the next id does. -/
theorem addNode_renumber (hnext : ρ ⟨g.nextId⟩ = ⟨next⟩) (spec : NodeSpec) :
    (g.renumber ρ next).addNode (spec.renumber ρ) =
      (g.addNode spec).renumber ρ (next + 1) (Except.map ρ) := by
  have hspec : Node.ofSpec ⟨(g.renumber ρ next).nextId⟩ (spec.renumber ρ) =
      (Node.ofSpec ⟨g.nextId⟩ spec).map (Node.renumber ρ) := by
    rw [← Node.ofSpec_renumber, hnext]
    rfl
  rw [addNode, addNode]
  dsimp only
  rw [hspec]
  cases Node.ofSpec ⟨g.nextId⟩ spec with
  | error => rfl
  | ok node =>
    have hput := Table.put_rekey (Node.id_renumber ρ) g.nodes node
    simp only [Outcome.renumber, Run.renumber, Run.answer, renumber, Except.map, Event.renumber,
      List.map_cons, List.map_nil, hnext, hput, Option.map_none]
    rfl

theorem spawn_renumber (catalog : Catalog) (key : String)
    (hnext : (catalog.get? key).isSome = true → ρ ⟨g.nextId⟩ = ⟨next⟩) :
    (catalog.renumber ρ).spawn (g.renumber ρ next) key =
      (catalog.spawn g key).renumber ρ (next + (catalog.get? key).isSome.toNat) (Except.map ρ) := by
  have htemplate : (catalog.renumber ρ).get? key =
      (catalog.get? key).map (Template.renumber ρ) :=
    Table.find?_map catalog.templates (Template.renumber ρ) (fun _ => rfl) key
  rw [Catalog.spawn, Catalog.spawn, htemplate]
  cases hfound : catalog.get? key with
  | none => rfl
  | some t =>
    rw [hfound] at hnext
    have hcreated : (g.renumber ρ next).addNode (t.renumber ρ).toSpec =
        (g.addNode t.toSpec).renumber ρ (next + 1) (Except.map ρ) :=
      g.addNode_renumber ρ next (hnext rfl) t.toSpec
    dsimp only [Option.map_some]
    rw [hcreated]
    simp only [Outcome.renumber, Run.answer]
    cases (g.addNode t.toSpec).result <;> rfl

/-! ## Removal -/

theorem vacate_renumber (l : Link) :
    (g.renumber ρ next).vacate (l.renumber ρ) = (g.vacate l).renumber ρ next := by
  rw [vacate, vacate, Link.renumber, isConnected_renumber, resetInput_renumber]
  split <;> rfl

theorem vacateAll_renumber (r : Run) (connections : List Connection) :
    (connections.map (Connection.renumber ρ)).foldl Run.vacate (r.renumber ρ next) =
      (connections.foldl Run.vacate r).renumber ρ next := by
  apply Run.foldl_renumber
  intro r c
  have hvacated := r.graph.vacate_renumber ρ next c.toLink
  exact congrArg (Run.mk · _) hvacated

theorem disconnect_renumber (id : ConnectionId) :
    (g.renumber ρ next).disconnect id =
      ((g.disconnect id).1.renumber ρ next, (g.disconnect id).2.map (Connection.renumber ρ)) := by
  rw [disconnect, disconnect, connection?_renumber]
  cases g.connection? id with
  | none => rfl
  | some c =>
    have herased := g.reconnect_renumber ρ next
      (Table.erase_rekey (Connection.id_renumber ρ) g.connections id)
    dsimp only [Option.map_some]
    rw [← vacate_renumber, ← herased]
    rfl

theorem disconnectWhere_renumber {p p' : Connection → Bool} (h : ∀ c, p' (c.renumber ρ) = p c) :
    (g.renumber ρ next).disconnectWhere p' = (g.disconnectWhere p).renumber ρ next id := by
  have hfiltered : (g.renumber ρ next).connections.filter (fun c => !p' c) =
      (g.connections.filter fun c => !p c).rekey _ _ (Connection.id_renumber ρ) := by
    refine (Table.filter_rekey (Connection.id_renumber ρ) g.connections _).trans ?_
    simp only [h]
  have hwithout := g.reconnect_renumber ρ next hfiltered
  rw [disconnectWhere, disconnectWhere, g.filter_connections_renumber ρ next h, List.isEmpty_map,
    List.length_map]
  split
  · rfl
  · have hvacated := vacateAll_renumber ρ next
      { graph := { g with connections := g.connections.filter fun c => !p c, knownOrder := none } }
      (g.connections.rows.filter p)
    rw [Run.renumber, ← hwithout] at hvacated
    exact congrArg (Run.answer · _) hvacated

theorem disconnectNode_renumber (node : NodeId) :
    (g.renumber ρ next).disconnectNode (ρ node) = (g.disconnectNode node).renumber ρ next id :=
  g.disconnectWhere_renumber ρ next fun c => c.toLink.involves_renumber ρ node

theorem disconnectPin_renumber (node : NodeId) (pin : Nat) (side : PinDirection) :
    (g.renumber ρ next).disconnectPin (ρ node) pin side =
      (g.disconnectPin node pin side).renumber ρ next id :=
  g.disconnectWhere_renumber ρ next fun c => c.toLink.touches_renumber ρ node pin side

theorem removeNode_renumber (node : NodeId) :
    (g.renumber ρ next).removeNode (ρ node) =
      (g.removeNode node).renumber ρ next (Option.map (Node.renumber ρ)) := by
  rw [removeNode, removeNode, hasNode_renumber, disconnectNode_renumber]
  split
  · have hnode := (g.disconnectNode node).graph.node?_renumber ρ next node
    have herased := Table.erase_rekey (Node.id_renumber ρ) (g.disconnectNode node).graph.nodes node
    simp only [Outcome.renumber, Run.renumber, Run.answer, Run.record, hnode] at herased ⊢
    rw [renumber, herased]
    rfl
  · rfl

/-! ## Integrity -/

theorem violation?_renumber (accepted : List Connection) (c : Connection) :
    (g.renumber ρ next).violation? (accepted.map (Connection.renumber ρ)) (c.renumber ρ) =
      (g.violation? accepted c).map (Violation.renumber ρ) := by
  have hoccupied : (accepted.map (Connection.renumber ρ)).any
        (fun a => a.enters (ρ c.target) c.targetPin) =
      accepted.any fun a => a.enters c.target c.targetPin := by
    rw [List.any_map]
    congr 1
    funext a
    exact a.toLink.enters_renumber ρ c.target c.targetPin
  simp only [violation?, Connection.toLink_renumber, Link.source_renumber, Link.target_renumber,
    Link.sourcePin_renumber, Link.targetPin_renumber, node?_renumber, ← List.map_reverse,
    Adjacency.pathExists_renumber, ρ.apply_eq_iff_eq, hoccupied]
  cases g.node? c.source with
  | none => rfl
  | some source =>
    cases g.node? c.target with
    | none => rfl
    | some target =>
      have houtput : (source.renumber ρ).output? c.sourcePin = source.output? c.sourcePin := rfl
      have hinput : (target.renumber ρ).input? c.targetPin = target.input? c.targetPin := rfl
      simp only [Option.map_some, houtput, hinput]
      cases source.output? c.sourcePin with
      | none => rfl
      | some sourcePin =>
        cases target.input? c.targetPin with
        | none => rfl
        | some targetPin =>
          dsimp only
          split
          · rfl
          · split
            · rfl
            · split <;> rfl

theorem violationsAmong_renumber (accepted connections : List Connection) :
    (g.renumber ρ next).violationsAmong (accepted.map (Connection.renumber ρ))
        (connections.map (Connection.renumber ρ)) =
      (g.violationsAmong accepted connections).map (Violation.renumber ρ) := by
  induction connections generalizing accepted with
  | nil => rfl
  | cons c connections ih =>
    rw [List.map_cons, violationsAmong, violationsAmong, violation?_renumber]
    cases g.violation? accepted c with
    | none => exact ih (c :: accepted)
    | some violation => exact congrArg _ (ih accepted)

theorem violations_renumber :
    (g.renumber ρ next).violations = g.violations.map (Violation.renumber ρ) :=
  g.violationsAmong_renumber ρ next [] g.connections.rows

theorem validate_renumber :
    (g.renumber ρ next).validate = g.validate.renumber ρ next id := by
  simp only [validate, violations_renumber, Outcome.renumber, Run.renumber, Run.answer,
    List.map_map, List.map_reverse, List.isEmpty_map]
  rfl

theorem cleanup_renumber : (g.renumber ρ next).cleanup = g.cleanup.renumber ρ next id := by
  have hinvalid : (g.renumber ρ next).violations.map Violation.connection =
      g.violations.map Violation.connection := by
    rw [violations_renumber, List.map_map]
    apply List.map_congr_left
    intro violation _
    cases violation <;> rfl
  have hremoval : (g.renumber ρ next).disconnectWhere
        (fun c => c.id ∈ g.violations.map Violation.connection) =
      (g.disconnectWhere fun c => c.id ∈ g.violations.map Violation.connection).renumber
        ρ next id :=
    g.disconnectWhere_renumber ρ next fun _ => rfl
  rw [cleanup, cleanup, hinvalid]
  split
  · rfl
  · dsimp only
    rw [hremoval]
    rfl

end Graph

/-! ## Any call -/

/-- A call under the new ids has the outcome that it has under the old ones.  If it takes up a
node id, the next ids have to correspond. -/
theorem Operation.respond_renumber (g : Graph) (operation : Operation)
    (hnext : operation.creates = true → ρ ⟨g.nextId⟩ = ⟨next⟩) :
    (operation.renumber ρ).respond (g.renumber ρ next) =
      (operation.respond g).renumber ρ (next + operation.creates.toNat) (Answer.renumber ρ) := by
  cases operation with
  | addNode spec =>
    exact congrArg (Outcome.map Answer.created) (g.addNode_renumber ρ next (hnext rfl) spec)
  | spawn catalog key =>
    exact congrArg (Outcome.map Answer.spawned) (g.spawn_renumber ρ next catalog key hnext)
  | connect id l => exact congrArg (Outcome.map Answer.connected) (g.connect_renumber ρ next id l)
  | restore c =>
    exact congrArg (fun g => Outcome.mk ⟨g, []⟩ Answer.done) (g.restore_renumber ρ next c)
  | disconnect id =>
    exact congrArg (fun d => Outcome.mk ⟨d.1, []⟩ (Answer.disconnected d.2))
      (g.disconnect_renumber ρ next id)
  | disconnectNode node =>
    exact congrArg (Outcome.map Answer.count) (g.disconnectNode_renumber ρ next node)
  | disconnectPin node pin side =>
    exact congrArg (Outcome.map Answer.count) (g.disconnectPin_renumber ρ next node pin side)
  | removeNode node =>
    exact congrArg (Outcome.map Answer.removed) (g.removeNode_renumber ρ next node)
  | validate => exact congrArg (Outcome.map Answer.valid) (g.validate_renumber ρ next)
  | cleanup => exact congrArg (Outcome.map Answer.count) (g.cleanup_renumber ρ next)
  | knowOrder => exact congrArg (Outcome.map Answer.order) (g.knowOrder_renumber ρ next)
  | refreshPure => exact congrArg (Run.answer · Answer.done) (g.sweep_renumber ρ next true)
  | refreshAll => exact congrArg (Run.answer · Answer.done) (g.sweep_renumber ρ next false)
  | refreshConnection id =>
    exact congrArg (Run.answer · Answer.done)
      (Run.refreshConnection_renumber ρ next { graph := g } id)
  | refreshInputs node =>
    exact congrArg (Run.answer · Answer.done)
      (Run.refreshInputs_renumber ρ next { graph := g } node)
  | perform command =>
    exact congrArg (Outcome.map Answer.performed) (g.perform_renumber ρ next command)
  | execute start => exact congrArg (Outcome.map Answer.performed) (g.execute_renumber ρ next start)
  | fire title => exact congrArg (Outcome.map Answer.fired) (g.fire_renumber ρ next title)
  | fireStart => exact congrArg (Outcome.map Answer.fired) (g.fire_renumber ρ next _)
  | fireTick => exact congrArg (Outcome.map Answer.fired) (g.fire_renumber ρ next _)
  | rename name => rfl
  | setSettings settings => rfl
  | setTitle node title =>
    exact congrArg (fun g => Outcome.mk ⟨g, []⟩ Answer.done)
      (Graph.modify_renumber ρ next g node _ _ fun _ => rfl)
  | setCategory node category =>
    exact congrArg (fun g => Outcome.mk ⟨g, []⟩ Answer.done)
      (Graph.modify_renumber ρ next g node _ _ fun _ => rfl)
  | setInput node pin value =>
    exact congrArg (fun g => Outcome.mk ⟨g, []⟩ Answer.done)
      (g.setInput_renumber ρ next node pin value)
  | setOutput node pin value =>
    exact congrArg (fun g => Outcome.mk ⟨g, []⟩ Answer.done)
      (g.setOutput_renumber ρ next node pin value)
  | invoke node =>
    have hinvoked := Run.invoke_renumber ρ next { graph := g } node
    rw [renumber, respond, Graph.invoke, Graph.hasNode_renumber]
    exact congrArg (Run.answer · (Answer.invoked (g.hasNode node))) hinvoked

/-! ## The same numbers -/

@[simp]
theorem Command.renumber_refl : Command.renumber (.refl _) = id := by
  funext command
  cases command <;> rfl

@[simp]
theorem Operation.renumber_refl : Operation.renumber (.refl _) = id := by
  funext operation
  cases operation <;> simp [renumber]

theorem mapError_id {ε α : Type} (x : Except ε α) : x.mapError id = x := by
  cases x <;> rfl

@[simp]
theorem Answer.renumber_refl : Answer.renumber (.refl _) = id := by
  funext answer
  cases answer with
  | created result => cases result <;> rfl
  | spawned result => cases result <;> rfl
  | connected result => simp [renumber, mapError_id]
  | performed result => simp [renumber, mapError_id]
  | _ => simp [renumber]

end FlowGraph
