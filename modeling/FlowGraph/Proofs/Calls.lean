import FlowGraph.Proofs.Changes

/-!
# Which behaviors are called, and when

A step of an execution calls the behavior of the node that it enters and those of the pure
nodes that are refreshed before.  The calls are listed in their order, each with the graph
at that moment.  They are the invocations that the journal of the step notes, and the graph
of each comes from the graph before the step by small changes.
-/

namespace FlowGraph

/-- An invocation: the node, and the graph when its behavior is called. -/
structure Call where
  node : NodeId
  graph : Graph

/-- The node that an event says was invoked. -/
def Event.invoked? : Event → Option NodeId
  | .invoked id => some id
  | _ => none

@[simp]
theorem Event.invoked?_ofRemark (id : NodeId) (remark : Remark) :
    (ofRemark id remark).invoked? = none := by
  cases remark <;> rfl

namespace Run

/-- The nodes that were invoked so far, in their order. -/
def invocations (r : Run) : List NodeId := r.events.filterMap Event.invoked?

def callsIfPure (r : Run) (id : NodeId) : List Call :=
  if r.graph.isPure id then [⟨id, r.graph⟩] else []

/-- The calls when one dependency is refreshed. -/
def callsOfDependency (target : NodeId) (r : Run) (id : NodeId) : List Call :=
  if id = target then [] else (r.copyAll (r.graph.dataInputs id)).callsIfPure id

/-- The calls when several dependencies are refreshed one after the other. -/
def callsOfDependencies (target : NodeId) : Run → List NodeId → List Call
  | _, [] => []
  | r, id :: ids =>
    callsOfDependency target r id ++ callsOfDependencies target (r.refreshDependency target id) ids

def callsOfInputs (r : Run) (target : NodeId) : List Call :=
  callsOfDependencies target r (r.graph.dependencies target)

end Run

namespace Execution

def callsOfPrepare (r : Run) (id : NodeId) : List Call :=
  if r.graph.settings.refreshesOnEntry then r.callsOfInputs id else []

/-- The calls when a node is entered: last that of the node itself, if it is live. -/
def callsOfEnter (r : Run) (id : NodeId) : List Call :=
  let prepared := prepare r id
  callsOfPrepare r id ++
    if prepared.graph.hasNode id then [⟨id, prepared.graph.setActive id true⟩] else []

/-- The calls of the next step. -/
def Machine.calls (m : Machine) : List Call :=
  match m.stack with
  | .enter id :: _ => callsOfEnter m.run id
  | _ => []

end Execution

/-! ## The journal notes every call -/

namespace Run

variable {r : Run} {id target : NodeId}

@[simp]
theorem invocations_copy (r : Run) (c : Connection) : (r.copy c).invocations = r.invocations := by
  rw [copy]
  split
  · rfl
  · split
    · simp [invocations, events, Event.invoked?]
    · rfl

@[simp]
theorem invocations_copyAll (r : Run) (connections : List Connection) :
    (r.copyAll connections).invocations = r.invocations := by
  induction connections generalizing r with
  | nil => rfl
  | cons c connections ih =>
    rw [copyAll, List.foldl_cons, ← copyAll, ih, invocations_copy]

/-- The statistics count what the journal notes. -/
theorem stats_invoked (r : Run) : r.stats.invoked = r.invocations.length := by
  rw [invocations, events, List.length_filterMap_eq_countP, List.countP_reverse, stats,
    Stats.ofEvents]
  apply List.countP_congr
  intro e _
  cases e <;> rfl

theorem invocations_invoke (hlive : r.graph.hasNode id = true) :
    (r.invoke id).invocations = r.invocations ++ [id] := by
  obtain ⟨n, hn⟩ := Option.isSome_iff_exists.1 hlive
  have hinvoked : (Event.invoked id).invoked? = some id := rfl
  rw [invoke, hn]
  simp [invocations, events, hinvoked]

theorem invocations_invokeIfPure (r : Run) (id : NodeId) :
    (r.invokeIfPure id).invocations = r.invocations ++ (r.callsIfPure id).map Call.node := by
  rw [invokeIfPure, callsIfPure]
  split
  next hpure => exact invocations_invoke (Graph.hasNode_of_isPure hpure)
  next => exact (List.append_nil _).symm

theorem invocations_refreshDependency (target : NodeId) (r : Run) (id : NodeId) :
    (r.refreshDependency target id).invocations =
      r.invocations ++ (callsOfDependency target r id).map Call.node := by
  rw [refreshDependency, callsOfDependency]
  split
  · simp
  · rw [invocations_invokeIfPure, invocations_copyAll]

theorem invocations_refreshInputs (r : Run) (target : NodeId) :
    (r.refreshInputs target).invocations =
      r.invocations ++ (r.callsOfInputs target).map Call.node := by
  rw [refreshInputs, callsOfInputs]
  induction r.graph.dependencies target generalizing r with
  | nil => exact (List.append_nil _).symm
  | cons id ids ih =>
    rw [List.foldl_cons, ih, invocations_refreshDependency, callsOfDependencies, List.map_append,
      List.append_assoc]

end Run

namespace Execution

theorem invocations_prepare (r : Run) (id : NodeId) :
    (prepare r id).invocations = r.invocations ++ (callsOfPrepare r id).map Call.node := by
  rw [prepare, callsOfPrepare]
  split
  · exact Run.invocations_refreshInputs r id
  · exact (List.append_nil _).symm

theorem invocations_continuation (r : Run) (n : Node) :
    (continuation r n).1.invocations = r.invocations := by
  rw [continuation]
  split
  · rfl
  · rfl
  · simp [Run.invocations, Run.record, Run.events, Event.invoked?]

theorem invocations_enter (r : Run) (id : NodeId) (stack : List Pending) :
    (enter r id stack).run.invocations =
      r.invocations ++ (callsOfEnter r id).map Call.node := by
  rw [enter, callsOfEnter, List.map_append, ← List.append_assoc, ← invocations_prepare]
  dsimp only
  split
  next hlive =>
    let marked : Run := { prepare r id with graph := (prepare r id).graph.setActive id true }
    have hmarked : marked.graph.hasNode id = true := by
      rw [Graph.hasNode_of_skeleton (Graph.skeleton_setActive _ id true)]
      exact hlive
    have hinvoked : (marked.invoke id).invocations = (prepare r id).invocations ++ [id] :=
      Run.invocations_invoke hmarked
    split
    · exact hinvoked
    · exact (invocations_continuation _ _).trans hinvoked
  next => exact (List.append_nil _).symm

theorem invocations_pass (r : Run) (id : NodeId) (next limit : Int32) (stack : List Pending) :
    (pass r id next limit stack).run.invocations = r.invocations := by
  rw [pass]
  split
  · split <;> rfl
  · rfl

/-- The journal of a step notes just the calls, in their order. -/
theorem invocations_step (m : Machine) :
    m.step.run.invocations = m.run.invocations ++ m.calls.map Call.node := by
  obtain ⟨r, _ | ⟨top, stack⟩⟩ := m
  · exact (List.append_nil _).symm
  · cases top with
    | enter id => exact invocations_enter r id stack
    | leave id => exact (List.append_nil _).symm
    | pass id next limit =>
      exact (invocations_pass r id next limit stack).trans (List.append_nil _).symm

end Execution

/-! ## The graph at a call -/

variable {may : Graph.Deed → Prop}

namespace Run

variable {r : Run} {call : Call}

theorem changes_of_mem_callsOfDependency {target id : NodeId}
    (hcall : call ∈ callsOfDependency target r id) : Graph.Changes may r.graph call.graph := by
  rw [callsOfDependency] at hcall
  split at hcall
  · cases hcall
  · rw [callsIfPure] at hcall
    split at hcall
    · rw [List.mem_singleton.1 hcall]
      exact changes_copyAll_dataInputs r id
    · cases hcall

theorem changes_of_mem_callsOfDependencies {target : NodeId} {ids : List NodeId}
    (hpure : ∀ id ∈ ids, id ≠ target → r.graph.isPure id = true → may (.invoke id))
    (hcall : call ∈ callsOfDependencies target r ids) : Graph.Changes may r.graph call.graph := by
  induction ids generalizing r with
  | nil => cases hcall
  | cons id ids ih =>
    cases List.mem_append.1 hcall with
    | inl hfirst => exact changes_of_mem_callsOfDependency hfirst
    | inr hlater =>
      have hrefreshed : Graph.Changes may r.graph (r.refreshDependency target id).graph :=
        changes_refreshDependency r (hpure id List.mem_cons_self)
      apply hrefreshed.trans
      apply ih _ hlater
      intro other hother
      rw [Graph.isPure_of_skeleton hrefreshed.skeleton]
      exact hpure other (List.mem_cons_of_mem id hother)

end Run

namespace Execution

variable {m : Machine} {call : Call}

/-- At each call of a step, nothing has been done but what may be done. -/
theorem changes_of_mem_calls (htop : ∀ p ∈ m.stack.head?, Permits may m.run.graph p.node)
    (hcall : call ∈ m.calls) : Graph.Changes may m.run.graph call.graph := by
  rw [Machine.calls] at hcall
  split at hcall
  next id stack hstack =>
    have hpermits : Permits may m.run.graph id := htop (.enter id) (by rw [hstack]; rfl)
    rw [callsOfEnter, List.mem_append] at hcall
    cases hcall with
    | inl hprepare =>
      rw [callsOfPrepare] at hprepare
      split at hprepare
      · exact Run.changes_of_mem_callsOfDependencies hpermits.pulled hprepare
      · cases hprepare
    | inr hown =>
      split at hown
      · rw [List.mem_singleton.1 hown]
        exact (changes_prepare hpermits).trans
          (Graph.Changes.single (.mark _ true (hpermits.own (.mark id) rfl)))
      · cases hown
  next => cases hcall

end Execution

end FlowGraph
