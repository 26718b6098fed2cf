import FlowGraph.Proofs.Following
import FlowGraph.Proofs.LazyPull
import FlowGraph.Proofs.Lockstep

/-!
# Confinement of execution

An execution enters the nodes to which exec connections lead from the start, and before it
enters one it invokes the pure nodes that contribute to that one.  Nothing is done at any
other node, except that values may be copied into its inputs, and that is not looked at.  What
the execution reads is what the nodes concerned remember, and the outputs from which values
are copied into them.
-/

namespace FlowGraph

/-- What has been done, but for the copying of values. -/
def Run.trace (r : Run) : List Event := r.events.filter fun e => !e.isCopy

namespace Graph

open Execution

/-- An exec connection leads from one node to another. -/
def LeadsTo (g : Graph) (a b : NodeId) : Prop :=
  ∃ c ∈ g.connections.rows, g.carriesExec c.toLink = true ∧ c.source = a ∧ c.target = b

/-- A node to which exec connections lead from the start, or a pure node that contributes to
such a node. -/
def Concerns (g : Graph) (start id : NodeId) : Prop :=
  ∃ reached, Relation.ReflTransGen g.LeadsTo start reached ∧
    (id = reached ∨ g.Contributes id reached)

/-- Two runs agree on what the nodes inside remember, on what may be copied into them, and on
what has been done. -/
structure Agree (g : Graph) (inside : NodeId → Prop) (r r' : Run) : Prop where
  left : g.SameWiring r.graph
  right : g.SameWiring r'.graph
  settings : r.graph.settings = r'.graph.settings
  memory : ∀ id, inside id → r.graph.memory? id = r'.graph.memory? id
  outputs : ∀ id next, inside next → g.Feeds id next →
    (r.graph.memory? id).map Memory.outputs = (r'.graph.memory? id).map Memory.outputs
  trace : r.trace = r'.trace

end Graph

/-! ## The trace of a run -/

namespace Run

variable {r r' : Run} {id : NodeId}

theorem trace_record (r : Run) (e : Event) :
    (r.record e).trace = r.trace ++ [e].filter fun e => !e.isCopy := by
  rw [trace, trace, events, record, List.reverse_cons, List.filter_append, events]

@[simp]
theorem trace_copy (r : Run) (c : Connection) : (r.copy c).trace = r.trace := by
  rw [copy]
  split
  · rfl
  · split
    · simp [trace, events, Event.isCopy]
    · rfl

theorem trace_invoke {n : Node} (hn : r.graph.node? id = some n) :
    (r.invoke id).trace =
      r.trace ++ (.invoked id :: n.react.2.map (Event.ofRemark id)).filter fun e => !e.isCopy := by
  rw [invoke, hn]
  simp [trace, events]

/-- The trace tells the invocations. -/
theorem invocations_eq_of_trace (h : r.trace = r'.trace) : r.invocations = r'.invocations := by
  have hread : ∀ r : Run, r.invocations = r.trace.filterMap Event.invoked? := by
    intro r
    rw [trace, List.filterMap_filter, invocations]
    apply List.filterMap_congr
    intro e _
    cases e <;> rfl
  rw [hread, h, ← hread]

end Run

namespace Graph

open Execution

variable {g g' : Graph} {inside : NodeId → Prop} {r r' : Run} {id start target : NodeId}

/-! ## Agreement is kept -/

namespace Agree

theorem refl (g : Graph) : Agree g inside { graph := g } { graph := g } :=
  ⟨.refl g, .refl g, rfl, fun _ _ => rfl, fun _ _ _ _ => rfl, rfl⟩

theorem of_parts (h : Agree g inside r r') {s s' : Run} (hs : s.graph.skeleton = r.graph.skeleton)
    (hs' : s'.graph.skeleton = r'.graph.skeleton)
    (hmemory : ∀ id, inside id → s.graph.memory? id = s'.graph.memory? id)
    (houtputs : ∀ id next, inside next → g.Feeds id next →
      (s.graph.memory? id).map Memory.outputs = (s'.graph.memory? id).map Memory.outputs)
    (htrace : s.trace = s'.trace) : Agree g inside s s' where
  left := h.left.trans (.of_skeleton hs.symm)
  right := h.right.trans (.of_skeleton hs'.symm)
  settings := by
    rw [settings_eq_of_skeleton hs, h.settings, settings_eq_of_skeleton hs']
  memory := hmemory
  outputs := houtputs
  trace := htrace

theorem record (h : Agree g inside r r') (e : Event) :
    Agree g inside (r.record e) (r'.record e) := by
  refine h.of_parts rfl rfl h.memory h.outputs ?_
  rw [Run.trace_record, Run.trace_record, h.trace]

/-- What is copied into a node inside is the same. -/
theorem delivery?_eq (h : Agree g inside r r') {c : Connection} (hc : g.Feeds c.source c.target)
    (hinside : inside c.target) : r.graph.delivery? c.toLink = r'.graph.delivery? c.toLink := by
  have hpin := (h.left.symm.trans h.right).targetPin?_eq c.toLink
  rw [delivery?, delivery?, hpin, sourceValue?_congr (h.outputs c.source c.target hinside hc)]

theorem copy (h : Agree g inside r r') {c : Connection} (hc : g.Feeds c.source c.target) :
    Agree g inside (r.copy c) (r'.copy c) := by
  apply h.of_parts (Run.skeleton_copy r c) (Run.skeleton_copy r' c)
  · intro id hid
    rw [Run.memory?_copy, Run.memory?_copy, h.memory id hid]
    split
    next htarget => rw [h.delivery?_eq hc (htarget ▸ hid)]
    next => rfl
  · intro id next hnext hfeeds
    rw [Run.outputs_copy, Run.outputs_copy]
    exact h.outputs id next hnext hfeeds
  · rw [Run.trace_copy, Run.trace_copy]
    exact h.trace

/-- A node inside is invoked: both runs get the same answer from it. -/
theorem invoke (h : Agree g inside r r') (hid : inside id) :
    Agree g inside (r.invoke id) (r'.invoke id) := by
  have hwiring := h.left.symm.trans h.right
  have hmemory : ∀ other, r.graph.memory? other = r'.graph.memory? other →
      (r.invoke id).graph.memory? other = (r'.invoke id).graph.memory? other := by
    intro other hother
    rw [Run.memory?_invoke, Run.memory?_invoke, hother, funext (hwiring.react_eq id)]
  apply h.of_parts (Run.skeleton_invoke r id) (Run.skeleton_invoke r' id)
  · exact fun other hother => hmemory other (h.memory other hother)
  · intro other next hnext hfeeds
    by_cases hother : other = id
    · rw [hmemory other (hother ▸ h.memory id hid)]
    · rw [Run.memory?_invoke, Run.memory?_invoke, if_neg hother, if_neg hother]
      exact h.outputs other next hnext hfeeds
  · have hskeleton := hwiring.map_node?_eq Node.skeleton (fun _ => rfl) id
    have hsame := h.memory id hid
    rw [memory?, memory?] at hsame
    cases hn : r.graph.node? id with
    | none =>
      rw [hn, Option.map_none, eq_comm, Option.map_eq_none_iff] at hsame
      rw [Run.invoke, hn, Run.invoke, hsame]
      exact h.trace
    | some n =>
      rw [hn, Option.map_some, eq_comm, Option.map_eq_some_iff] at hskeleton hsame
      obtain ⟨n', hn', hmemory⟩ := hsame
      obtain ⟨_, hn'', hskeleton⟩ := hskeleton
      cases hn'.symm.trans hn''
      rw [Run.trace_invoke hn, Run.trace_invoke hn', h.trace, Node.react_congr hskeleton hmemory]

theorem setOutput (h : Agree g inside r r') (id : NodeId) (index : Nat) (value : Value) :
    Agree g inside { r with graph := r.graph.setOutput id index value }
      { r' with graph := r'.graph.setOutput id index value } := by
  apply h.of_parts (skeleton_setOutput _ id index value) (skeleton_setOutput _ id index value)
  · intro other hother
    rw [memory?_setOutput, memory?_setOutput, h.memory other hother]
  · intro other next hnext hfeeds
    have hbefore := h.outputs other next hnext hfeeds
    rw [memory?_setOutput, memory?_setOutput]
    split
    · have hset := congrArg (Option.map fun outputs => outputs.set index value) hbefore
      rw [Option.map_map, Option.map_map] at hset
      rw [Option.map_map, Option.map_map]
      exact hset
    · exact hbefore
  · exact h.trace

theorem setActive (h : Agree g inside r r') (id : NodeId) (active : Bool) :
    Agree g inside { r with graph := r.graph.setActive id active }
      { r' with graph := r'.graph.setActive id active } := by
  apply h.of_parts (skeleton_setActive _ id active) (skeleton_setActive _ id active)
  · intro other hother
    rw [memory?_setActive, memory?_setActive, h.memory other hother]
  · intro other next hnext hfeeds
    rw [memory?_setActive, memory?_setActive, h.outputs other next hnext hfeeds]
  · exact h.trace

/-- The refresh of the inputs of a node, if all pure nodes that contribute are inside. -/
theorem refreshInputs (h : Agree g inside r r')
    (hpulled : ∀ id, g.Contributes id target → inside id) :
    Agree g inside (r.refreshInputs target) (r'.refreshInputs target) := by
  have hcopied : ∀ {s s'}, Agree g inside s s' → ∀ id,
      Agree g inside (s.copyAll (g.dataInputs id)) (s'.copyAll (g.dataInputs id)) := by
    intro s s' hs id
    apply List.foldl_rel hs
    intro c hc _ _ hbefore
    obtain ⟨hstored, -, hdata⟩ := mem_dataInputs_iff.1 hc
    exact hbefore.copy ⟨c, hstored, hdata, rfl, rfl⟩
  rw [Run.refreshInputs, Run.refreshInputs, ← h.left.dependencies_eq, ← h.right.dependencies_eq]
  apply List.foldl_rel h
  intro id hid s s' hs
  have hcopies := hcopied hs id
  rw [Run.refreshDependency, Run.refreshDependency, ← hs.left.dataInputs_eq,
    ← hs.right.dataInputs_eq]
  split
  next => exact hcopies
  next hne =>
    rw [Run.invokeIfPure, Run.invokeIfPure, ← hcopies.left.isPure_eq, ← hcopies.right.isPure_eq]
    split
    next hpure =>
      exact hcopies.invoke (hpulled id (contributes_of_mem_dependencies hid hne hpure))
    next => exact hcopies

/-- A node inside is entered, if all pure nodes that contribute to it are inside. -/
theorem enter (h : Agree g inside r r') (hid : inside id)
    (hpulled : ∀ other, g.Contributes other id → inside other) :
    Agree g inside (Recursion.enter r id) (Recursion.enter r' id) := by
  have hprepared : Agree g inside (prepare r id) (prepare r' id) := by
    rw [prepare, prepare, ← h.settings]
    split
    · exact h.refreshInputs hpulled
    · exact h
  exact (hprepared.setActive id true).invoke hid

end Agree

/-! ## Whole executions -/

/-- Runs that agree on the nodes concerned are executed in step. -/
theorem lockstep_concerns (g : Graph) (start : NodeId) :
    Lockstep g (fun id => Relation.ReflTransGen g.LeadsTo start id ∧ g.hasNode id = true)
      (g.Agree (g.Concerns start)) := by
  have hpulled : ∀ {id}, Relation.ReflTransGen g.LeadsTo start id →
      ∀ other, g.Contributes other id → g.Concerns start other :=
    fun hreached _ hother => ⟨_, hreached, .inr hother⟩
  have henter : ∀ {r r' : Run} {id}, Relation.ReflTransGen g.LeadsTo start id →
      g.Agree (g.Concerns start) r r' →
        g.Agree (g.Concerns start) (Recursion.enter r id) (Recursion.enter r' id) :=
    fun hreached h => h.enter ⟨_, hreached, .inl rfl⟩ (hpulled hreached)
  exact {
    wiring := fun h => ⟨h.left, h.right⟩
    live := fun hid => hid.2
    next := fun hid hc =>
      ⟨hid.1.tail ⟨_, hc.stored, hc.exec, hc.source_eq, hc.target_eq⟩, hc.live⟩
    record := fun e h => h.record e
    enter := fun hid h => henter hid.1 h
    inputs := fun hid h => by rw [(henter hid.1 h).memory _ ⟨_, hid.1, .inl rfl⟩]
    showIndex := fun index number _ h => h.setOutput _ index (.int number)
    leave := fun _ h => h.setActive _ false }

/-- Step by step, things are done at the nodes concerned only. -/
theorem changes_iterate_step_concerns (hlive : g.hasNode start = true) (steps : Nat) :
    Changes (fun deed => g.Concerns start deed.node) g
      (Machine.step^[steps] (g.launch start)).run.graph := by
  induction steps with
  | zero => exact Changes.refl g
  | succ steps ih =>
    have hwiring : (Machine.step^[steps] (g.launch start)).run.graph.SameWiring g :=
      .of_skeleton (skeleton_iterate_step (g.launch start) steps)
    have hlaunched := (lockstep_concerns g start).launch (.refl g) ⟨.refl, hlive⟩
    rw [Function.iterate_succ_apply']
    apply ih.trans
    apply changes_step
    intro p hp
    have hreached := (((lockstep_concerns g start).iterate_step hlaunched steps).within p
      (List.mem_of_mem_head? hp)).1
    constructor
    · intro deed hdeed
      exact ⟨p.node, hreached, .inl hdeed⟩
    · intro other hother hne hpure
      rw [hwiring.dependencies_eq] at hother
      rw [hwiring.isPure_eq] at hpure
      exact ⟨p.node, hreached, .inr (contributes_of_mem_dependencies hother hne hpure)⟩

/-- So they are in the whole execution, if it is not refused. -/
theorem changes_execute_concerns (g : Graph) (start : NodeId) :
    Changes (fun deed => g.Concerns start deed.node) g (g.execute start).graph := by
  cases hlive : g.hasNode start with
  | false =>
    rw [execute, Run.execute, hlive]
    exact Changes.refl g
  | true =>
    by_cases hok : (g.execute start).result = .ok ()
    · obtain ⟨steps, hsteps⟩ := exists_iterate_step_of_execute hok
      have hlast := changes_iterate_step_concerns hlive steps
      rw [hsteps] at hlast
      exact hlast
    · rw [execute] at hok ⊢
      split
      next run hrun =>
        rw [hrun] at hok
        exact absurd rfl hok
      next => exact Changes.refl g

/-- An execution is confined to the nodes that it concerns.  It writes no outputs, locals or
marks of other nodes, and titles, pins, behaviors, settings and connections not at all.  It
reads what the nodes concerned remember and the outputs of nodes that feed them, so that in a
graph that is wired alike and agrees on these it comes to the same result, does the same in
the same order (but for copying into other nodes), and leaves the same in the nodes
concerned. -/
theorem execution_confined (g : Graph) (start : NodeId) :
    (g.execute start).graph.skeleton = g.skeleton ∧
      (∀ id, ¬ g.Concerns start id →
        ((g.execute start).graph.memory? id).map Memory.outputs =
            (g.memory? id).map Memory.outputs ∧
          ((g.execute start).graph.memory? id).map Memory.locals =
            (g.memory? id).map Memory.locals ∧
          (g.execute start).graph.active? id = g.active? id) ∧
      ∀ g' : Graph, g.SameWiring g' → g.settings = g'.settings →
        (∀ id, g.Concerns start id → g.memory? id = g'.memory? id) →
        (∀ id next, g.Concerns start next → g.Feeds id next →
          (g.memory? id).map Memory.outputs = (g'.memory? id).map Memory.outputs) →
        (g.execute start).result = (g'.execute start).result ∧
          (g.execute start).toRun.trace = (g'.execute start).toRun.trace ∧
          (g.execute start).toRun.invocations = (g'.execute start).toRun.invocations ∧
          ∀ id, g.Concerns start id →
            (g.execute start).graph.memory? id = (g'.execute start).graph.memory? id := by
  have hchanges := changes_execute_concerns g start
  refine ⟨hchanges.skeleton, ?_, ?_⟩
  · intro id hid
    have hother : ∀ deed : Deed, g.Concerns start deed.node → deed.node ≠ id := by
      rintro deed hdeed rfl
      exact hid hdeed
    exact ⟨hchanges.outputs_eq hother, hchanges.locals_eq hother, hchanges.active?_eq hother⟩
  · intro g' hwiring hsettings hmemory houtputs
    have hagree : g.Agree (g.Concerns start) { graph := g } { graph := g' } :=
      ⟨.refl g, hwiring, hsettings, hmemory, houtputs, rfl⟩
    rw [execute, execute]
    rcases (lockstep_concerns g start).execute hagree fun hlive => ⟨.refl, hlive⟩ with
      ⟨out, out', hout, hout', hends⟩ | ⟨error, herror, herror'⟩
    · rw [hout, hout']
      exact ⟨rfl, hends.trace, Run.invocations_eq_of_trace hends.trace, hends.memory⟩
    · rw [herror, herror']
      exact ⟨rfl, rfl, rfl, hmemory⟩

/-- The display is not concerned when the loop is started, and its input may be anything. -/
theorem execution_confined_starting :
    starting.Concerns ⟨4⟩ ⟨0⟩ ∧ ¬ starting.Concerns ⟨4⟩ ⟨3⟩ ∧
      starting.memory? ⟨3⟩ ≠ (starting.setInput ⟨3⟩ 0 (.int 99)).memory? ⟨3⟩ ∧
      (starting.execute ⟨4⟩).toRun.invocations = [⟨4⟩, ⟨0⟩, ⟨1⟩, ⟨2⟩] ∧
      (starting.execute ⟨4⟩).toRun.invocations =
        ((starting.setInput ⟨3⟩ 0 (.int 99)).execute ⟨4⟩).toRun.invocations ∧
      (starting.execute ⟨4⟩).graph.memory? ⟨2⟩ =
        ((starting.setInput ⟨3⟩ 0 (.int 99)).execute ⟨4⟩).graph.memory? ⟨2⟩ := by
  have hreached : Relation.ReflTransGen starting.LeadsTo ⟨4⟩ ⟨2⟩ :=
    .single ⟨⟨⟨⟨4⟩, 0, ⟨2⟩, 0⟩, ⟨3⟩⟩, by decide, by decide, rfl, rfl⟩
  have hnumber : starting.Concerns ⟨4⟩ ⟨0⟩ := by
    refine ⟨⟨2⟩, hreached, .inr ?_⟩
    apply Relation.TransGen.head (b := ⟨1⟩)
    · exact ⟨rfl, ⟨⟨⟨0⟩, 0, ⟨1⟩, 0⟩, ⟨0⟩⟩, by decide, rfl, rfl, rfl⟩
    · exact .single ⟨rfl, ⟨⟨⟨1⟩, 0, ⟨2⟩, 2⟩, ⟨1⟩⟩, by decide, rfl, rfl, rfl⟩
  have hdisplay : ¬ starting.Concerns ⟨4⟩ ⟨3⟩ := by
    have hnowhere : ∀ c ∈ starting.connections.rows, c.source ≠ ⟨3⟩ := by decide
    have hexec : ∀ c ∈ starting.connections.rows, starting.carriesExec c.toLink = true →
        c.target ≠ ⟨3⟩ := by decide
    rintro ⟨reached, hchain, rfl | hcontributes⟩
    · rcases Relation.ReflTransGen.cases_tail hchain with hstart | ⟨_, -, c, hc, hleaves, -, hends⟩
      · cases hstart
      · exact hexec c hc hleaves hends
    · obtain ⟨_, ⟨-, c, hc, -, hstarts, -⟩, -⟩ := Relation.TransGen.head'_iff.1 hcontributes
      exact hnowhere c hc hstarts
  have hskeleton := (skeleton_setInput starting ⟨3⟩ 0 (.int 99)).symm
  have hmemory : ∀ id, starting.Concerns ⟨4⟩ id →
      starting.memory? id = (starting.setInput ⟨3⟩ 0 (.int 99)).memory? id := by
    intro id hid
    rw [memory?_setInput, if_neg]
    rintro rfl
    exact hdisplay hid
  have houtputs : ∀ id, (starting.memory? id).map Memory.outputs =
      ((starting.setInput ⟨3⟩ 0 (.int 99)).memory? id).map Memory.outputs := by
    intro id
    rw [memory?_setInput]
    split
    · rw [Option.map_map]
      rfl
    · rfl
  have hconfined := (execution_confined starting ⟨4⟩).2.2 _ (.of_skeleton hskeleton)
    (settings_eq_of_skeleton hskeleton) hmemory fun id _ _ _ => houtputs id
  exact ⟨hnumber, hdisplay, by decide, by rfl, hconfined.2.2.1,
    hconfined.2.2.2 ⟨2⟩ ⟨_, hreached, .inl rfl⟩⟩

end Graph

end FlowGraph
