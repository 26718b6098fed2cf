import FlowGraph.Graph.Command
import FlowGraph.Proofs.Dependencies

/-!
# Runs that know another data order

Only a pass over a whole graph looks at the data order that the graph knows.  Everything
else does the same whatever order is known and whatever has happened before: to change
these two and then go on is to go on and then change them.
-/

namespace FlowGraph

/-- The graph with another data order known. -/
def Graph.knowing (g : Graph) (known : Option (List NodeId)) : Graph :=
  { g with knownOrder := known }

/-- The run with another data order known, and after earlier events. -/
def Run.recast (r : Run) (known : Option (List NodeId)) (past : List Event) : Run where
  graph := r.graph.knowing known
  journal := r.journal ++ past

variable {known : Option (List NodeId)} {past : List Event}

namespace Dependency

theorem advance_knowing (g : Graph) (target : NodeId) (steps : Nat) (w : Walk) :
    w.advance (g.knowing known) target steps = w.advance g target steps := by
  induction steps generalizing w with
  | zero => rfl
  | succ steps ih =>
    have hstep : w.step (g.knowing known) target = w.step g target := rfl
    rw [Walk.advance, hstep, ih, Walk.advance]

end Dependency

theorem Graph.dependencies_knowing (g : Graph) (target : NodeId) :
    (g.knowing known).dependencies target = g.dependencies target := by
  rw [dependencies, Dependency.advance_knowing]
  rfl

namespace Run

/-! ## Refreshing -/

theorem recast_foldl {α : Type} {f : Run → α → Run}
    (hf : ∀ r a, f (r.recast known past) a = (f r a).recast known past) (r : Run) (as : List α) :
    as.foldl f (r.recast known past) = (as.foldl f r).recast known past :=
  List.foldl_hom (fun r : Run => r.recast known past) hf

@[simp]
theorem recast_invoke (r : Run) (id : NodeId) :
    (r.recast known past).invoke id = (r.invoke id).recast known past := by
  have hnode : (r.recast known past).graph.node? id = r.graph.node? id := rfl
  rw [invoke, invoke, hnode]
  cases r.graph.node? id with
  | none => rfl
  | some n => simp [recast, Graph.knowing, Graph.setMemory]

@[simp]
theorem recast_invokeIfPure (r : Run) (id : NodeId) :
    (r.recast known past).invokeIfPure id = (r.invokeIfPure id).recast known past := by
  have hpure : (r.recast known past).graph.isPure id = r.graph.isPure id := rfl
  rw [invokeIfPure, invokeIfPure, hpure]
  split
  · exact recast_invoke r id
  · rfl

@[simp]
theorem recast_copy (r : Run) (c : Connection) :
    (r.recast known past).copy c = (r.copy c).recast known past := by
  have hnode : (r.recast known past).graph.node? = r.graph.node? := rfl
  rw [copy, copy, hnode]
  split
  · rfl
  · split <;> rfl

@[simp]
theorem recast_copyAll (r : Run) (connections : List Connection) :
    (r.recast known past).copyAll connections = (r.copyAll connections).recast known past :=
  recast_foldl recast_copy r connections

@[simp]
theorem recast_refreshNode (pureOnly : Bool) (r : Run) (id : NodeId) :
    (r.recast known past).refreshNode pureOnly id =
      (r.refreshNode pureOnly id).recast known past := by
  have hinputs : (r.recast known past).graph.dataInputs id = r.graph.dataInputs id := rfl
  have hpure : (r.recast known past).graph.isPure = r.graph.isPure := rfl
  have hfeeds : ∀ r : Run, (r.recast known past).graph.feedsData id = r.graph.feedsData id :=
    fun _ => rfl
  simp only [refreshNode, hinputs, hpure, recast_copyAll, hfeeds, recast_invokeIfPure]
  split <;> rfl

@[simp]
theorem recast_refreshConnection (r : Run) (id : ConnectionId) :
    (r.recast known past).refreshConnection id = (r.refreshConnection id).recast known past := by
  have hconnection : (r.recast known past).graph.connection? id = r.graph.connection? id := rfl
  have hdata : (r.recast known past).graph.carriesData = r.graph.carriesData := rfl
  rw [refreshConnection, refreshConnection, hconnection]
  split
  · rfl
  · simp only [hdata, recast_invokeIfPure, recast_copy]
    split <;> rfl

@[simp]
theorem recast_refreshDependency (target : NodeId) (r : Run) (id : NodeId) :
    (r.recast known past).refreshDependency target id =
      (r.refreshDependency target id).recast known past := by
  have hinputs : (r.recast known past).graph.dataInputs id = r.graph.dataInputs id := rfl
  simp only [refreshDependency, hinputs, recast_copyAll, recast_invokeIfPure]
  split <;> rfl

@[simp]
theorem recast_refreshInputs (r : Run) (target : NodeId) :
    (r.recast known past).refreshInputs target = (r.refreshInputs target).recast known past := by
  have hdependencies : (r.recast known past).graph.dependencies target =
      r.graph.dependencies target :=
    Graph.dependencies_knowing r.graph target
  rw [refreshInputs, hdependencies]
  exact recast_foldl (recast_refreshDependency target) r _

theorem graph_refreshInputs (r : Run) (target : NodeId) :
    (r.refreshInputs target).graph =
      (r.graph.refreshInputs target).graph.knowing r.graph.knownOrder := by
  have hrecast : r = Run.recast { graph := r.graph } r.graph.knownOrder r.journal := rfl
  rw [hrecast, recast_refreshInputs]
  rfl

end Run

/-! ## Executing -/

namespace Execution

/-- The machine with its run recast. -/
def Machine.recast (m : Machine) (known : Option (List NodeId)) (past : List Event) : Machine where
  run := m.run.recast known past
  stack := m.stack

theorem recast_prepare (r : Run) (id : NodeId) :
    prepare (r.recast known past) id = (prepare r id).recast known past := by
  have hsettings : (r.recast known past).graph.settings = r.graph.settings := rfl
  rw [prepare, prepare, hsettings]
  split
  · exact Run.recast_refreshInputs r id
  · rfl

theorem recast_continuation (r : Run) (n : Node) :
    continuation (r.recast known past) n =
      ((continuation r n).1.recast known past, (continuation r n).2) := by
  rw [continuation, continuation]
  split <;> rfl

theorem recast_enter (r : Run) (id : NodeId) (stack : List Pending) :
    enter (r.recast known past) id stack = (enter r id stack).recast known past := by
  have hlive : ∀ r : Run, (r.recast known past).graph.hasNode id = r.graph.hasNode id :=
    fun _ => rfl
  have hnode : ∀ r : Run, (r.recast known past).graph.node? id = r.graph.node? id := fun _ => rfl
  have hactive : ∀ r : Run,
      { r.recast known past with graph := (r.recast known past).graph.setActive id true } =
        Run.recast { r with graph := r.graph.setActive id true } known past :=
    fun _ => rfl
  simp only [enter, recast_prepare, hlive, hactive, Run.recast_invoke, hnode]
  split
  · split
    · rfl
    · simp only [recast_continuation]
      rfl
  · rfl

theorem recast_pass (r : Run) (id : NodeId) (next limit : Int32) (stack : List Pending) :
    pass (r.recast known past) id next limit stack =
      (pass r id next limit stack).recast known past := by
  have hnode : (r.recast known past).graph.node? id = r.graph.node? id := rfl
  rw [pass, pass, hnode]
  split
  · split <;> rfl
  · rfl

theorem recast_step (m : Machine) :
    (m.recast known past).step = m.step.recast known past := by
  obtain ⟨r, _ | ⟨top, stack⟩⟩ := m
  · rfl
  · cases top with
    | enter id => exact recast_enter r id stack
    | leave id => rfl
    | pass id next limit => exact recast_pass r id next limit stack

theorem recast_finish? (steps : Nat) (m : Machine) :
    (m.recast known past).finish? steps = (m.finish? steps).map (·.recast known past) := by
  induction steps generalizing m with
  | zero => rfl
  | succ steps ih =>
    have hstack : (m.recast known past).stack = m.stack := rfl
    rw [Machine.finish?, Machine.finish?, hstack, recast_step, ih]
    split <;> rfl

end Execution

open Execution

theorem Run.recast_execute (r : Run) (start : NodeId) :
    (r.recast known past).execute start =
      (r.execute start).map (·.recast known past) := by
  have hlive : (r.recast known past).graph.hasNode start = r.graph.hasNode start := rfl
  have hbound : stepBound (r.recast known past).graph = stepBound r.graph := rfl
  have hfirst : (⟨(r.recast known past).record (.executing start), [.enter start]⟩ : Machine) =
      Machine.recast ⟨r.record (.executing start), [.enter start]⟩ known past := rfl
  rw [execute, execute, hlive, hbound, hfirst, recast_finish?]
  split
  · cases Machine.finish? (stepBound r.graph) ⟨r.record (.executing start), [.enter start]⟩ <;> rfl
  · rfl

end FlowGraph
