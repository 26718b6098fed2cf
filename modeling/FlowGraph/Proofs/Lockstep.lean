import FlowGraph.Proofs.DepthFirst
import FlowGraph.Proofs.Stack
import FlowGraph.Proofs.Wiring

/-!
# Two executions side by side

Two executions of graphs that are wired alike go the same way as long as each node that is
entered shows both of them the same inputs, because nothing else decides where execution
goes on.  A relation between the runs that every part of a step keeps, and that makes those
inputs the same, therefore holds from the beginning to the end, and at every moment both
executions have the same work before them.
-/

namespace FlowGraph.Execution

/-- A relation between two runs that the parts of a step keep, at all nodes at which they may
be made. -/
structure Lockstep (g : Graph) (who : NodeId → Prop) (Alike : Run → Run → Prop) : Prop where
  wiring : ∀ {r r' : Run}, Alike r r' → g.SameWiring r.graph ∧ g.SameWiring r'.graph
  live : ∀ {id : NodeId}, who id → g.hasNode id = true
  next : ∀ {id next : NodeId} {c : Connection}, who id → g.Schedules id next c → who next
  record : ∀ {r r' : Run} (e : Event), Alike r r' → Alike (r.record e) (r'.record e)
  enter : ∀ {r r' : Run} {id : NodeId}, who id → Alike r r' →
    Alike (Recursion.enter r id) (Recursion.enter r' id)
  /-- What decides where execution goes on is the same. -/
  inputs : ∀ {r r' : Run} {id : NodeId}, who id → Alike r r' →
    ((Recursion.enter r id).graph.memory? id).map Memory.inputs =
      ((Recursion.enter r' id).graph.memory? id).map Memory.inputs
  showIndex : ∀ {r r' : Run} {id : NodeId} (index : Nat) (number : Int32), who id → Alike r r' →
    Alike (Recursion.showIndex r id index number) (Recursion.showIndex r' id index number)
  leave : ∀ {r r' : Run} {id : NodeId}, who id → Alike r r' →
    Alike (Recursion.leave r id) (Recursion.leave r' id)

/-- Two machines have related runs and the same work before them. -/
structure Abreast (who : NodeId → Prop) (Alike : Run → Run → Prop) (m m' : Machine) : Prop where
  run : Alike m.run m'.run
  stack : m.stack = m'.stack
  within : ∀ p ∈ m.stack, who p.node

namespace Lockstep

variable {g : Graph} {who : NodeId → Prop} {Alike : Run → Run → Prop} {r r' : Run}
  {m m' : Machine} {id start : NodeId} (h : Lockstep g who Alike)

include h

theorem sameWiring (hrun : Alike r r') : r.graph.SameWiring r'.graph :=
  (h.wiring hrun).1.symm.trans (h.wiring hrun).2

/-! ## One step -/

theorem continuation {n n' : Node} (hrun : Alike r r') (hid : n.id = n'.id)
    (hflow : n.flow = n'.flow) (hinputs : n.memory.inputs = n'.memory.inputs) :
    Alike (continuation r n).1 (continuation r' n').1 ∧
      (continuation r n).2 = (continuation r' n').2 := by
  have hwiring := h.sameWiring hrun
  rw [Execution.continuation, Execution.continuation, ← hflow, ← hid, ← hinputs]
  cases n.flow with
  | sequence => exact ⟨hrun, hwiring.enterAll_eq n.id none⟩
  | branch condition onTrue onFalse => exact ⟨hrun, hwiring.enterAll_eq n.id _⟩
  | loop first limit index body completed => exact ⟨h.record _ hrun, rfl⟩

theorem step_enter (hid : who id) (hrun : Alike r r') (stack : List Pending) :
    Alike (Machine.step ⟨r, .enter id :: stack⟩).run (Machine.step ⟨r', .enter id :: stack⟩).run ∧
      (Machine.step ⟨r, .enter id :: stack⟩).stack =
        (Machine.step ⟨r', .enter id :: stack⟩).stack := by
  have hentered := h.enter hid hrun
  have hwiring := h.sameWiring hentered
  have hlive : (Recursion.enter r id).graph.hasNode id = true := by
    rw [← (h.wiring hentered).1.hasNode_eq]
    exact h.live hid
  have hlive' : (Recursion.enter r' id).graph.hasNode id = true := by
    rw [← hwiring.hasNode_eq]
    exact hlive
  obtain ⟨n, hn⟩ := Option.isSome_iff_exists.1 hlive
  obtain ⟨n', hn'⟩ := Option.isSome_iff_exists.1 hlive'
  have hflow := hwiring.map_node?_eq Node.flow (fun _ => rfl) id
  have hinputs := h.inputs hid hrun
  rw [hn, hn', Option.map_some, Option.map_some, Option.some_inj] at hflow
  rw [Graph.memory?, hn, Graph.memory?, hn', Option.map_some, Option.map_some, Option.map_some,
    Option.map_some, Option.some_inj] at hinputs
  have hsame : n.id = n'.id := (Table.key_of_find? hn).trans (Table.key_of_find? hn').symm
  obtain ⟨hfollow, htodo⟩ := h.continuation hentered hsame hflow hinputs
  rw [Graph.hasNode_of_skeleton (Recursion.skeleton_enter r id)] at hlive
  rw [Graph.hasNode_of_skeleton (Recursion.skeleton_enter r' id)] at hlive'
  rw [Recursion.step_enter hlive hn, Recursion.step_enter hlive' hn', htodo]
  exact ⟨hfollow, rfl⟩

theorem step_pass (hid : who id) (hrun : Alike r r') (next limit : Int32)
    (stack : List Pending) :
    Alike (Machine.step ⟨r, .pass id next limit :: stack⟩).run
        (Machine.step ⟨r', .pass id next limit :: stack⟩).run ∧
      (Machine.step ⟨r, .pass id next limit :: stack⟩).stack =
        (Machine.step ⟨r', .pass id next limit :: stack⟩).stack := by
  have hflow := (h.sameWiring hrun).map_node?_eq Node.flow (fun _ => rfl) id
  simp only [Machine.step, pass, ← hflow]
  split
  next first bound index body completed _ =>
    split
    · have hshown := h.showIndex index next hid hrun
      constructor
      · exact hshown
      · exact congrArg (· ++ Pending.pass id (next + 1) limit :: stack)
          ((h.sameWiring hshown).enterAll_eq id (some body))
    · exact ⟨hrun, congrArg (· ++ stack) ((h.sameWiring hrun).enterAll_eq id (some completed))⟩
  next => exact ⟨hrun, rfl⟩

/-- Work comes up only at nodes where steps may be made. -/
theorem within_step (hwiring : g.SameWiring m.run.graph) (hwithin : ∀ p ∈ m.stack, who p.node)
    {p : Pending} (hp : p ∈ m.step.stack) : who p.node := by
  obtain ⟨top, below, hstack, horigin⟩ := puts_of_mem_step hp
  have htop : who top.node := hwithin top (hstack ▸ List.mem_cons_self)
  cases horigin with
  | inl hbelow => exact hwithin p (hstack ▸ List.mem_cons_of_mem top hbelow)
  | inr hputs =>
    cases hputs with
    | enter hc => exact h.next htop (hc.of_wiring hwiring.symm)
    | leave => exact htop
    | pass => exact htop

theorem step (hm : Abreast who Alike m m') : Abreast who Alike m.step m'.step := by
  have hwithin : ∀ p ∈ m.step.stack, who p.node :=
    fun p => h.within_step (h.wiring hm.run).1 hm.within
  obtain ⟨r, stack⟩ := m
  obtain ⟨r', stack'⟩ := m'
  obtain ⟨hrun, hstack, hbefore⟩ := hm
  cases hstack
  cases stack with
  | nil => exact ⟨hrun, rfl, hwithin⟩
  | cons top stack =>
    have htop : who top.node := hbefore top List.mem_cons_self
    cases top with
    | enter id =>
      obtain ⟨hnext, hleft⟩ := h.step_enter htop hrun stack
      exact ⟨hnext, hleft, hwithin⟩
    | leave id => exact ⟨h.leave htop hrun, rfl, hwithin⟩
    | pass id next limit =>
      obtain ⟨hnext, hleft⟩ := h.step_pass htop hrun next limit stack
      exact ⟨hnext, hleft, hwithin⟩

/-! ## Whole executions -/

theorem iterate_step (hm : Abreast who Alike m m') (steps : Nat) :
    Abreast who Alike (Machine.step^[steps] m) (Machine.step^[steps] m') := by
  induction steps with
  | zero => exact hm
  | succ steps ih =>
    rw [Function.iterate_succ_apply', Function.iterate_succ_apply']
    exact h.step ih

theorem finish? (hm : Abreast who Alike m m') (limit : Nat) :
    Option.Rel Alike (m.finish? limit) (m'.finish? limit) := by
  induction limit generalizing m m' with
  | zero => exact .none
  | succ limit ih =>
    rw [Machine.finish?, Machine.finish?, ← hm.stack]
    split
    · exact .some hm.run
    · exact ih (h.step hm)

/-- The machines with which two executions begin. -/
theorem launch (hrun : Alike r r') (hstart : who start) :
    Abreast who Alike ⟨r.record (.executing start), [.enter start]⟩
      ⟨r'.record (.executing start), [.enter start]⟩ where
  run := h.record _ hrun
  stack := rfl
  within p hp := by
    rw [List.mem_singleton.1 hp]
    exact hstart

/-- Both executions end with related runs, or both are refused for the same reason. -/
theorem execute (hrun : Alike r r') (hstart : g.hasNode start = true → who start) :
    (∃ out out', r.execute start = .ok out ∧ r'.execute start = .ok out' ∧ Alike out out') ∨
      ∃ error, r.execute start = .error error ∧ r'.execute start = .error error := by
  obtain ⟨hleft, -⟩ := h.wiring hrun
  have hwiring := h.sameWiring hrun
  rw [Run.execute, Run.execute, ← hwiring.hasNode_eq, ← hwiring.stepBound_eq]
  split
  next hlive =>
    have hends := h.finish? (h.launch hrun (hstart ((hleft.hasNode_eq start).trans hlive)))
      (stepBound r.graph)
    revert hends
    generalize Machine.finish? _ _ = last
    generalize Machine.finish? _ _ = last'
    rintro (halike | -)
    · exact .inl ⟨_, _, rfl, rfl, halike⟩
    · exact .inr ⟨_, rfl, rfl⟩
  next => exact .inr ⟨_, rfl, rfl⟩

end Lockstep

end FlowGraph.Execution
