import FlowGraph.Proofs.RenumberedRun

/-!
# Executions under other numbers

An execution enters the same nodes in the same order, whatever numbers they have.
-/

namespace FlowGraph

variable (ρ : Equiv.Perm NodeId) (next : Nat)

namespace Execution

def Pending.renumber : Pending → Pending
  | enter id => enter (ρ id)
  | leave id => leave (ρ id)
  | pass id next limit => pass (ρ id) next limit

def Machine.renumber (m : Machine) : Machine where
  run := m.run.renumber ρ next
  stack := m.stack.map (Pending.renumber ρ)

theorem successors_renumber (g : Graph) (id : NodeId) (pin : Option Nat) :
    successors (g.renumber ρ next) (ρ id) pin = (successors g id pin).map ρ := by
  have hfollowed : ∀ c : Connection,
      ((c.renumber ρ).source == ρ id && pin.all ((c.renumber ρ).sourcePin == ·)
        && (g.renumber ρ next).carriesExec (c.renumber ρ).toLink
        && (c.renumber ρ).target != ρ id && (g.renumber ρ next).hasNode (c.renumber ρ).target) =
      (c.source == id && pin.all (c.sourcePin == ·) && g.carriesExec c.toLink
        && c.target != id && g.hasNode c.target) := by
    intro c
    simp only [Connection.toLink_renumber, Link.source_renumber, Link.sourcePin_renumber,
      Link.target_renumber, bne, beq_renumber, Graph.carriesExec_renumber, Graph.hasNode_renumber]
  rw [successors, g.filter_connections_renumber ρ next hfollowed, List.map_map, successors,
    List.map_map]
  rfl

theorem enterAll_renumber (g : Graph) (id : NodeId) (pin : Option Nat) :
    enterAll (g.renumber ρ next) (ρ id) pin = (enterAll g id pin).map (Pending.renumber ρ) := by
  rw [enterAll, successors_renumber, List.map_map, enterAll, List.map_map]
  rfl

theorem prepare_renumber (r : Run) (id : NodeId) :
    prepare (r.renumber ρ next) (ρ id) = (prepare r id).renumber ρ next := by
  have hsettings : (r.renumber ρ next).graph.settings = r.graph.settings := rfl
  rw [prepare, prepare, hsettings]
  split
  · exact r.refreshInputs_renumber ρ next id
  · rfl

theorem continuation_renumber (r : Run) (n : Node) :
    continuation (r.renumber ρ next) (n.renumber ρ) =
      ((continuation r n).1.renumber ρ next, (continuation r n).2.map (Pending.renumber ρ)) := by
  have hflow : (n.renumber ρ).flow = n.flow := rfl
  rw [continuation, continuation, hflow]
  split
  · exact congrArg (Prod.mk _) (enterAll_renumber ρ next r.graph n.id none)
  · exact congrArg (Prod.mk _) (enterAll_renumber ρ next r.graph n.id _)
  · rfl

/-- The run as a node is marked, and invoked after that. -/
theorem invoke_setActive_renumber (r : Run) (id : NodeId) :
    Run.invoke { r.renumber ρ next with
      graph := (r.renumber ρ next).graph.setActive (ρ id) true } (ρ id) =
      (Run.invoke { r with graph := r.graph.setActive id true } id).renumber ρ next := by
  have hactive := r.graph.setActive_renumber ρ next id true
  rw [← Run.invoke_renumber, Run.renumber, hactive]
  rfl

theorem enter_renumber (r : Run) (id : NodeId) (stack : List Pending) :
    enter (r.renumber ρ next) (ρ id) (stack.map (Pending.renumber ρ)) =
      (enter r id stack).renumber ρ next := by
  have hlive : ∀ r : Run, (r.renumber ρ next).graph.hasNode (ρ id) = r.graph.hasNode id :=
    fun r => r.graph.hasNode_renumber ρ next id
  have hnode : ∀ r : Run, (r.renumber ρ next).graph.node? (ρ id) =
      (r.graph.node? id).map (Node.renumber ρ) :=
    fun r => r.graph.node?_renumber ρ next id
  simp only [enter, prepare_renumber, hlive, invoke_setActive_renumber, hnode]
  split
  · cases (Run.invoke { prepare r id with
      graph := (prepare r id).graph.setActive id true } id).graph.node? id with
    | none => rfl
    | some n =>
      simp only [Option.map_some, continuation_renumber, Machine.renumber, List.map_append,
        List.map_cons]
      rfl
  · rfl

theorem pass_renumber (r : Run) (id : NodeId) (first limit : Int32) (stack : List Pending) :
    pass (r.renumber ρ next) (ρ id) first limit (stack.map (Pending.renumber ρ)) =
      (pass r id first limit stack).renumber ρ next := by
  have hflow : ((r.renumber ρ next).graph.node? (ρ id)).map Node.flow =
      (r.graph.node? id).map Node.flow := by
    rw [Run.renumber, Graph.node?_renumber, Option.map_map]
    rfl
  have henter : ∀ g pin, enterAll (g.renumber ρ next) (ρ id) pin =
      (enterAll g id pin).map (Pending.renumber ρ) :=
    fun g pin => enterAll_renumber ρ next g id pin
  rw [pass, pass, hflow]
  split
  next index body completed _ =>
    have hset := r.graph.setOutput_renumber ρ next id index (.int first)
    split
    · simp only [Run.renumber, hset, henter, Machine.renumber, List.map_append, List.map_cons]
      rfl
    · simp only [Run.renumber, henter, Machine.renumber, List.map_append]
  next => rfl

theorem step_renumber (m : Machine) : (m.renumber ρ next).step = m.step.renumber ρ next := by
  obtain ⟨r, _ | ⟨top, stack⟩⟩ := m
  · rfl
  · cases top with
    | enter id => exact enter_renumber ρ next r id stack
    | leave id =>
      have hactive := r.graph.setActive_renumber ρ next id false
      exact congrArg (fun graph => Machine.mk ⟨graph, _⟩ (stack.map (Pending.renumber ρ))) hactive
    | pass id first limit => exact pass_renumber ρ next r id first limit stack

theorem finish?_renumber (steps : Nat) (m : Machine) :
    (m.renumber ρ next).finish? steps = (m.finish? steps).map (Run.renumber ρ next) := by
  induction steps generalizing m with
  | zero => rfl
  | succ steps ih =>
    have hempty : (m.renumber ρ next).stack.isEmpty = m.stack.isEmpty := List.isEmpty_map
    rw [Machine.finish?, Machine.finish?, hempty, step_renumber, ih]
    split <;> rfl

theorem stepBound_renumber (g : Graph) : stepBound (g.renumber ρ next) = stepBound g := by
  rw [stepBound, Graph.size_nodes_renumber, Graph.size_connections_renumber, stepBound]

end Execution

open Execution

theorem Run.execute_renumber (r : Run) (start : NodeId) :
    (r.renumber ρ next).execute (ρ start) =
      ((r.execute start).map (Run.renumber ρ next)).mapError (ExecutionError.renumber ρ) := by
  have hlive : (r.renumber ρ next).graph.hasNode (ρ start) = r.graph.hasNode start :=
    r.graph.hasNode_renumber ρ next start
  have hbound : stepBound (r.renumber ρ next).graph = stepBound r.graph :=
    stepBound_renumber ρ next r.graph
  have hfirst : Machine.mk ((r.renumber ρ next).record (.executing (ρ start))) [.enter (ρ start)] =
      Machine.renumber ρ next ⟨r.record (.executing start), [.enter start]⟩ := rfl
  rw [execute, execute, hlive, hbound, hfirst, finish?_renumber]
  split
  · cases Machine.finish? (stepBound r.graph) ⟨r.record (.executing start), [.enter start]⟩ <;> rfl
  · rfl

namespace Graph

variable (g : Graph)

theorem execute_renumber (start : NodeId) :
    (g.renumber ρ next).execute (ρ start) =
      (g.execute start).renumber ρ next (Except.mapError (ExecutionError.renumber ρ)) := by
  have hrun : Run.execute { graph := g.renumber ρ next } (ρ start) =
      ((Run.execute { graph := g } start).map (Run.renumber ρ next)).mapError
        (ExecutionError.renumber ρ) :=
    Run.execute_renumber ρ next { graph := g } start
  rw [execute, hrun, execute]
  cases Run.execute { graph := g } start <;> rfl

theorem fire_renumber (title : String) :
    (g.renumber ρ next).fire title = (g.fire title).renumber ρ next id := by
  have hrefreshed : (if (g.renumber ρ next).settings.refreshesFirst then
        (g.renumber ρ next).refreshAll else { graph := g.renumber ρ next }) =
      (if g.settings.refreshesFirst then g.refreshAll else { graph := g }).renumber ρ next := by
    have hsettings : (g.renumber ρ next).settings = g.settings := rfl
    rw [hsettings]
    split
    · exact g.sweep_renumber ρ next false
    · rfl
  rw [fire, fire, findTitle?_renumber]
  cases g.findTitle? title with
  | none => rfl
  | some entry =>
    dsimp only [Option.map_some]
    rw [hrefreshed, Run.execute_renumber]
    cases Run.execute (if g.settings.refreshesFirst then g.refreshAll else { graph := g }) entry <;>
      rfl

end Graph

def Command.renumber : Command → Command
  | refreshPure => refreshPure
  | refreshAll => refreshAll
  | refreshConnection id => refreshConnection id
  | refreshInputs node => refreshInputs (ρ node)
  | execute node => execute (ρ node)

theorem Graph.perform_renumber (g : Graph) (command : Command) :
    (g.renumber ρ next).perform (command.renumber ρ) =
      (g.perform command).renumber ρ next (Except.mapError (ExecutionError.renumber ρ)) := by
  cases command with
  | refreshPure => exact congrArg (Run.answer · _) (g.sweep_renumber ρ next true)
  | refreshAll => exact congrArg (Run.answer · _) (g.sweep_renumber ρ next false)
  | refreshConnection id =>
    exact congrArg (Run.answer · _) (Run.refreshConnection_renumber ρ next { graph := g } id)
  | refreshInputs node =>
    rw [Command.renumber, perform, perform, hasNode_renumber]
    split
    · exact congrArg (Run.answer · _) (Run.refreshInputs_renumber ρ next { graph := g } node)
    · rfl
  | execute node => exact g.execute_renumber ρ next node

end FlowGraph
