import FlowGraph.Proofs.Integrity
import FlowGraph.Proofs.Stack

/-!
# What execution follows

A node is entered because an earlier step put it on the stack, for a connection that leaves
an exec output of a node entered before.  Where the connection ends is not looked at, as long
as that is another, live node: one that was restored unchecked is followed into a data input,
or to no pin at all.  The audit tells these connections from those that end at an exec input.
-/

namespace FlowGraph

open Execution

/-- The machine when an execution begins. -/
def Graph.launch (g : Graph) (start : NodeId) : Machine :=
  ⟨Run.record { graph := g } (.executing start), [.enter start]⟩

/-- The next step enters a node. -/
def Execution.Machine.Enters (m : Machine) (id : NodeId) : Prop :=
  ∃ stack, m.stack = .enter id :: stack

/-- A connection is reported as one that joins pins of different classes or ends at no pin. -/
def Graph.ReportedPins (g : Graph) (c : Connection) : Prop :=
  .classMismatch c.id ∈ g.violations ∨ .noInput c.id c.target c.targetPin ∈ g.violations

namespace Execution

/-- A node has been entered in the first steps of a machine. -/
def Machine.HasEntered (m : Machine) (steps : Nat) (id : NodeId) : Prop :=
  ∃ earlier < steps, (Machine.step^[earlier] m).Enters id

/-- What is still to be done has its origin in a node that has been entered. -/
def Grounded (g : Graph) (entered : NodeId → Prop) : Pending → Prop
  | .enter next => ∃ node c, entered node ∧ g.Schedules node next c
  | .leave node => entered node
  | .pass node _ _ => entered node

variable {g : Graph} {m : Machine} {node start : NodeId} {p : Pending}
  {entered entered' : NodeId → Prop}

/-! ## Where entries of the stack come from -/

theorem Grounded.mono (h : Grounded g entered p) (himp : ∀ id, entered id → entered' id) :
    Grounded g entered' p := by
  cases p with
  | enter next =>
    obtain ⟨node, c, hnode, hc⟩ := h
    exact ⟨node, c, himp node hnode, hc⟩
  | leave node => exact himp node h
  | pass node next limit => exact himp node h

theorem Grounded.of_puts (h : g.Puts node p) (hnode : entered node) : Grounded g entered p := by
  cases h with
  | enter hc => exact ⟨node, _, hnode, hc⟩
  | leave => exact hnode
  | pass => exact hnode

theorem Machine.HasEntered.succ {steps : Nat} {id : NodeId} (h : m.HasEntered steps id) :
    m.HasEntered (steps + 1) id := by
  obtain ⟨earlier, hearlier, henters⟩ := h
  exact ⟨earlier, Nat.lt_succ_of_lt hearlier, henters⟩

/-- The node on top of the stack is entered now, if it has not been entered before. -/
theorem hasEntered_top {steps : Nat} {top : Pending} {below : List Pending}
    (hstack : (Machine.step^[steps] m).stack = top :: below)
    (htop : (∃ id, top = .enter id) ∨ Grounded g (m.HasEntered steps) top) :
    m.HasEntered (steps + 1) top.node := by
  cases top with
  | enter id => exact ⟨steps, Nat.lt_succ_self steps, below, hstack⟩
  | leave id =>
    rcases htop with ⟨_, henter⟩ | hgrounded
    · cases henter
    · exact Machine.HasEntered.succ hgrounded
  | pass id next limit =>
    rcases htop with ⟨_, henter⟩ | hgrounded
    · cases henter
    · exact Machine.HasEntered.succ hgrounded

/-- At every step, what is still to be done has its origin in a node that has been entered,
but for the entering of the start itself. -/
theorem grounded_of_mem_stack {steps : Nat}
    (hp : p ∈ (Machine.step^[steps] (g.launch start)).stack) :
    (steps = 0 ∧ p = .enter start) ∨ Grounded g ((g.launch start).HasEntered steps) p := by
  induction steps generalizing p with
  | zero => exact .inl ⟨rfl, List.mem_singleton.1 hp⟩
  | succ steps ih =>
    right
    rw [Function.iterate_succ_apply'] at hp
    obtain ⟨top, below, hstack, horigin⟩ := puts_of_mem_step hp
    cases horigin with
    | inl hbelow =>
      rcases ih (hstack ▸ List.mem_cons_of_mem top hbelow) with ⟨rfl, -⟩ | hgrounded
      · -- at first nothing lies below the start
        cases hstack
        cases hbelow
      · exact hgrounded.mono fun _ => Machine.HasEntered.succ
    | inr hputs =>
      have hskeleton : (Machine.step^[steps] (g.launch start)).run.graph.skeleton = g.skeleton :=
        skeleton_iterate_step (g.launch start) steps
      have htop : (g.launch start).HasEntered (steps + 1) top.node := by
        apply hasEntered_top hstack
        exact (ih (hstack ▸ List.mem_cons_self)).imp_left fun hfirst => ⟨start, hfirst.2⟩
      exact .of_puts (hputs.of_skeleton hskeleton) htop

end Execution

namespace Graph

variable {g : Graph} {c : Connection} {v : Violation} {node next start : NodeId}

/-! ## What the audit says of them -/

/-- A violation that names a stored connection is a violation by it. -/
theorem exists_breaks_of_connection (hv : v ∈ g.violations) (hc : c ∈ g.connections.rows)
    (hid : v.connection = c.id) : ∃ kept, g.Breaks kept c v := by
  obtain ⟨before, d, after, hrows, hbreaks⟩ := exists_breaks_of_mem hv
  have hd : d ∈ g.connections.rows := by
    rw [hrows]
    exact List.mem_append_right before List.mem_cons_self
  have hsame : d = c :=
    Table.eq_of_key_eq g.connections.distinct hd hc (hbreaks.connection_eq.symm.trans hid)
  exact ⟨g.keptOf before, hsame ▸ hbreaks⟩

/-- A connection that does not fit its pins is reported. -/
theorem exists_violation_of_not_fits (hc : c ∈ g.connections.rows) (hfits : ¬ g.Fits c.toLink) :
    ∃ v ∈ g.violations, v.connection = c.id := by
  have hreported : c.id ∈ g.reported := by
    by_contra hnot
    have hkept : c ∈ g.unreported := List.mem_filter.2 ⟨hc, decide_eq_true hnot⟩
    exact hfits ((sound_unreported g).fits c hkept)
  exact List.mem_map.1 hreported

/-- Execution is passed on to an exec input exactly along the connections that are not
reported for their pins. -/
theorem Schedules.exec_target_iff (h : g.Schedules node next c) :
    (∃ pin ∈ g.targetPin? c.toLink, pin.isExec = true) ↔ ¬ g.ReportedPins c := by
  obtain ⟨sourcePin, hsource, hexec⟩ := (Option.any_eq_true _ _).1 h.exec
  have hlive : g.hasNode c.target = true := by
    rw [h.target_eq]
    exact h.live
  constructor
  · rintro ⟨targetPin, htarget, htargetExec⟩ hreported
    have hclass : sourcePin.cls = targetPin.cls :=
      (beq_iff_eq.1 hexec).trans (beq_iff_eq.1 htargetExec).symm
    rcases hreported with hmismatch | hmissing
    · obtain ⟨kept, hbreaks⟩ := exists_breaks_of_connection hmismatch h.stored rfl
      cases hbreaks with
      | classMismatch hsource' htarget' hne =>
        cases hsource.symm.trans hsource'
        cases htarget.symm.trans htarget'
        exact hne hclass
    · obtain ⟨kept, hbreaks⟩ := exists_breaks_of_connection hmissing h.stored rfl
      cases hbreaks with
      | noInput _ _ hnone => cases htarget.symm.trans hnone
  · intro hunreported
    by_contra hnot
    have hfits : ¬ g.Fits c.toLink := by
      rintro ⟨pin, hpin, targetPin, htarget, hclass⟩
      cases hsource.symm.trans hpin
      exact hnot ⟨targetPin, htarget, beq_iff_eq.2 (hclass.symm.trans (beq_iff_eq.1 hexec))⟩
    obtain ⟨v, hv, hid⟩ := exists_violation_of_not_fits h.stored hfits
    obtain ⟨kept, hbreaks⟩ := exists_breaks_of_connection hv h.stored hid
    -- with an exec output and a live target, only the input can be at fault
    cases hbreaks with
    | noSource hmissing => cases (hasNode_of_sourcePin? hsource).symm.trans hmissing
    | noTarget _ hmissing => cases hlive.symm.trans hmissing
    | noOutput _ _ hmissing => cases hsource.symm.trans hmissing
    | noInput => exact hunreported (.inr hv)
    | classMismatch => exact hunreported (.inl hv)
    | occupied hfits' => exact hfits hfits'
    | closesCycle hfits' => exact hfits hfits'

/-! ## Whole executions -/

/-- An execution that is not refused is a run of the machine to its end. -/
theorem exists_iterate_step_of_execute (h : (g.execute start).result = .ok ()) :
    ∃ steps, Machine.step^[steps] (g.launch start) = ⟨(g.execute start).toRun, []⟩ := by
  rw [execute] at h ⊢
  split at h
  next out hrun =>
    obtain ⟨-, steps, -, hhalts⟩ := Run.execute_eq_ok_iff.1 hrun
    exact ⟨steps, hhalts.last⟩
  next => cases h

/-- Whatever connections were stored, in an execution that ends every node but the start is
entered for a stored connection from an exec output of a node entered before, and it is a
live node other than that one.  The connection ends at an exec input exactly if the audit
reports neither that its pins are of different classes nor that it has no input pin. -/
theorem execution_follows_schedule (h : (g.execute start).result = .ok ()) :
    ∃ steps, Machine.step^[steps] (g.launch start) = ⟨(g.execute start).toRun, []⟩ ∧
      ∀ k id, (Machine.step^[k] (g.launch start)).Enters id → (k = 0 ∧ id = start) ∨
        ∃ earlier < k, ∃ node c, (Machine.step^[earlier] (g.launch start)).Enters node ∧
          g.Schedules node id c ∧
          ((∃ pin ∈ g.targetPin? c.toLink, pin.isExec = true) ↔ ¬ g.ReportedPins c) := by
  obtain ⟨steps, hsteps⟩ := exists_iterate_step_of_execute h
  refine ⟨steps, hsteps, ?_⟩
  rintro k id ⟨stack, hstack⟩
  have hpending : .enter id ∈ (Machine.step^[k] (g.launch start)).stack := by
    rw [hstack]
    exact List.mem_cons_self
  rcases grounded_of_mem_stack hpending with ⟨hfirst, hstart⟩ | hgrounded
  · exact .inl ⟨hfirst, Pending.enter.inj hstart⟩
  · obtain ⟨node, c, ⟨earlier, hearlier, henters⟩, hc⟩ := hgrounded
    exact .inr ⟨earlier, hearlier, node, c, henters, hc, hc.exec_target_iff⟩

/-- A graph to look at: an event leads to the exec input of one node, and by a connection
that was restored unchecked to a data input of another. -/
def misled : Graph :=
  [.addNode { title := "On Start", outputs := [.exec] },
    .addNode { title := "Act", inputs := [.exec "Run"] },
    .addNode { title := "Show", inputs := [.exec "Run", .data "Value" (.int 0)] },
    .connect ⟨0⟩ ⟨⟨0⟩, 0, ⟨1⟩, 0⟩,
    .restore ⟨⟨⟨0⟩, 0, ⟨2⟩, 1⟩, ⟨1⟩⟩].foldl Operation.apply {}

theorem execution_follows_schedule_misled :
    (misled.execute ⟨0⟩).result = .ok () ∧
      (Machine.step^[1] (misled.launch ⟨0⟩)).Enters ⟨1⟩ ∧
      ∃ node c, misled.Schedules node ⟨1⟩ c ∧
        ((∃ pin ∈ misled.targetPin? c.toLink, pin.isExec = true) ↔ ¬ misled.ReportedPins c) := by
  have hok : (misled.execute ⟨0⟩).result = .ok () := by rfl
  have henters : (Machine.step^[1] (misled.launch ⟨0⟩)).Enters ⟨1⟩ := ⟨_, rfl⟩
  obtain ⟨_, -, hentered⟩ := execution_follows_schedule hok
  refine ⟨hok, henters, ?_⟩
  rcases hentered 1 ⟨1⟩ henters with ⟨hfirst, -⟩ | ⟨_, -, node, c, -, hc⟩
  · cases hfirst
  · exact ⟨node, c, hc⟩

/-- A node is entered although no stored connection leads from an exec output to an exec
input of it, along a connection that is reported. -/
theorem enters_through_data_input_misled :
    Reachable (fun _ _ => True) misled ∧ (misled.execute ⟨0⟩).result = .ok () ∧
      (Machine.step^[3] (misled.launch ⟨0⟩)).Enters ⟨2⟩ ∧
      (∀ c ∈ misled.connections.rows, misled.carriesExec c.toLink = true → c.target = ⟨2⟩ →
        ¬ ∃ pin ∈ misled.targetPin? c.toLink, pin.isExec = true) ∧
      .classMismatch ⟨1⟩ ∈ misled.violations := by
  refine ⟨?_, rfl, ⟨_, rfl⟩, by decide, by decide⟩
  apply Reachable.step (.restore ⟨⟨⟨0⟩, 0, ⟨2⟩, 1⟩, ⟨1⟩⟩) _ trivial
  apply Reachable.step (.connect ⟨0⟩ ⟨⟨0⟩, 0, ⟨1⟩, 0⟩) _ trivial
  apply Reachable.step
    (.addNode { title := "Show", inputs := [.exec "Run", .data "Value" (.int 0)] }) _ trivial
  apply Reachable.step (.addNode { title := "Act", inputs := [.exec "Run"] }) _ trivial
  apply Reachable.step (.addNode { title := "On Start", outputs := [.exec] }) _ trivial
  exact Reachable.empty _ _

end Graph

end FlowGraph
