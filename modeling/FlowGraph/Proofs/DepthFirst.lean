import FlowGraph.Proofs.Halting
import FlowGraph.Proofs.Integrity
import FlowGraph.Proofs.Recursion
import Mathlib.Tactic.Linarith

/-!
# The stack of the machine is the recursion

Whatever lies below on the stack, the machine works off the entering of a node by doing
to the run exactly what the recursive execution does to it.  The induction is on the
number of nodes that a path from the node can go through, which a graph without cycles
bounds; it also bounds the number of steps, so that the limit on the length of an
execution is never met.
-/

namespace FlowGraph.Recursion

open Execution

/-- The machine gets from one run and some work to another run and the work that is left,
whatever lies below on the stack, and takes no more steps than the bound. -/
def Leads (bound : Nat) (r : Run) (todo : List Pending) (r' : Run) (left : List Pending) :
    Prop :=
  ∃ steps ≤ bound, ∀ stack, Machine.step^[steps] ⟨r, todo ++ stack⟩ = ⟨r', left ++ stack⟩

namespace Leads

variable {bound bound' : Nat} {r r' r'' : Run} {todo left left' : List Pending}

theorem refl (r : Run) (todo : List Pending) : Leads 0 r todo r todo :=
  ⟨0, Nat.le_refl 0, fun _ => rfl⟩

theorem of_step (hstep : ∀ stack, Machine.step ⟨r, todo ++ stack⟩ = ⟨r', left ++ stack⟩) :
    Leads 1 r todo r' left :=
  ⟨1, Nat.le_refl 1, hstep⟩

theorem trans (h : Leads bound r todo r' left) (h' : Leads bound' r' left r'' left') :
    Leads (bound + bound') r todo r'' left' := by
  obtain ⟨steps, hsteps, hrun⟩ := h
  obtain ⟨steps', hsteps', hrun'⟩ := h'
  have hsum : steps' + steps ≤ bound + bound' := by omega
  use steps' + steps, hsum
  intro stack
  rw [Function.iterate_add_apply, hrun, hrun']

theorem mono (h : Leads bound r todo r' left) (hbound : bound ≤ bound') :
    Leads bound' r todo r' left := by
  obtain ⟨steps, hsteps, hrun⟩ := h
  exact ⟨steps, hsteps.trans hbound, hrun⟩

/-- Work that lies below is not touched. -/
theorem below (h : Leads bound r todo r' left) (rest : List Pending) :
    Leads bound r (todo ++ rest) r' (left ++ rest) := by
  obtain ⟨steps, hsteps, hrun⟩ := h
  use steps, hsteps
  intro stack
  rw [List.append_assoc, hrun, List.append_assoc]

end Leads

/-! ## Single steps -/

theorem leads_leave (r : Run) (id : NodeId) : Leads 1 r [.leave id] (leave r id) [] :=
  .of_step fun _ => rfl

/-- A node is left when all that its entering put on the stack has been worked off. -/
theorem leads_through {bound : Nat} {r entered finished : Run} {id : NodeId}
    {following : List Pending} (henter : Leads 1 r [.enter id] entered (following ++ [.leave id]))
    (hfollow : Leads bound entered following finished []) :
    Leads (1 + bound + 1) r [.enter id] (leave finished id) [] :=
  (henter.trans (hfollow.below [.leave id])).trans (leads_leave finished id)

theorem step_enter {r : Run} {id : NodeId} {n : Node} (hlive : r.graph.hasNode id = true)
    (hn : (enter r id).graph.node? id = some n) (stack : List Pending) :
    Machine.step ⟨r, .enter id :: stack⟩ =
      ⟨(continuation (enter r id) n).1,
        (continuation (enter r id) n).2 ++ .leave id :: stack⟩ := by
  have hprepared : (prepare r id).graph.hasNode id = true := by
    rw [← Graph.hasNode_skeleton, skeleton_prepare, Graph.hasNode_skeleton, hlive]
  have hn' : (Run.invoke { prepare r id with
      graph := (prepare r id).graph.setActive id true } id).graph.node? id = some n := hn
  change Execution.enter r id stack = _
  rw [Execution.enter]
  simp only [hprepared, if_true, hn']
  rfl

theorem leads_enter {r : Run} {id : NodeId} {n : Node} (hlive : r.graph.hasNode id = true)
    (hn : (enter r id).graph.node? id = some n) :
    Leads 1 r [.enter id] (continuation (enter r id) n).1
      ((continuation (enter r id) n).2 ++ [.leave id]) := by
  apply Leads.of_step
  intro stack
  rw [List.append_assoc]
  exact step_enter hlive hn stack

theorem step_pass_body {r : Run} {id : NodeId} {first limit index body completed : Nat}
    {next last : Int32}
    (hflow : (r.graph.node? id).map Node.flow = some (.loop first limit index body completed))
    (hnext : next < last) (stack : List Pending) :
    Machine.step ⟨r, .pass id next last :: stack⟩ =
      ⟨showIndex r id index next, enterAll (showIndex r id index next).graph id (some body) ++
        .pass id (next + 1) last :: stack⟩ := by
  change pass r id next last stack = _
  rw [Execution.pass, hflow]
  simp only [hnext, if_true]
  rfl

theorem leads_pass_body {r : Run} {id : NodeId} {first limit index body completed : Nat}
    {next last : Int32}
    (hflow : (r.graph.node? id).map Node.flow = some (.loop first limit index body completed))
    (hnext : next < last) :
    Leads 1 r [.pass id next last] (showIndex r id index next)
      (enterAll (showIndex r id index next).graph id (some body) ++
        [.pass id (next + 1) last]) := by
  apply Leads.of_step
  intro stack
  rw [List.append_assoc]
  exact step_pass_body hflow hnext stack

theorem step_pass_completed {r : Run} {id : NodeId}
    {first limit index body completed : Nat} {next last : Int32}
    (hflow : (r.graph.node? id).map Node.flow = some (.loop first limit index body completed))
    (hnext : ¬ next < last) (stack : List Pending) :
    Machine.step ⟨r, .pass id next last :: stack⟩ =
      ⟨r, enterAll r.graph id (some completed) ++ stack⟩ := by
  change pass r id next last stack = _
  rw [Execution.pass, hflow]
  simp only [hnext, if_false]

theorem leads_pass_completed {r : Run} {id : NodeId}
    {first limit index body completed : Nat} {next last : Int32}
    (hflow : (r.graph.node? id).map Node.flow = some (.loop first limit index body completed))
    (hnext : ¬ next < last) :
    Leads 1 r [.pass id next last] r (enterAll r.graph id (some completed)) :=
  .of_step (step_pass_completed hflow hnext)

/-! ## Simulation -/

variable {g : Graph} {depth bound : Nat} {id : NodeId}

/-- In all graphs with one skeleton the recursion to some depth ends at a node, and the
machine follows it within a bound. -/
def Simulates (g : Graph) (depth bound : Nat) (id : NodeId) : Prop :=
  ∀ r : Run, r.graph.skeleton = g.skeleton →
    ∃ r', execute depth r id = some r' ∧ r'.graph.skeleton = g.skeleton ∧
      Leads bound r [.enter id] r' []

theorem foldlM_leads {ids : List NodeId} (hids : ∀ id ∈ ids, Simulates g depth bound id)
    {r : Run} (hr : r.graph.skeleton = g.skeleton) :
    ∃ r', ids.foldlM (execute depth) r = some r' ∧ r'.graph.skeleton = g.skeleton ∧
      Leads (ids.length * bound) r (ids.map .enter) r' [] := by
  induction ids generalizing r with
  | nil => exact ⟨r, rfl, hr, (Leads.refl r []).mono (Nat.zero_le _)⟩
  | cons id ids ih =>
    obtain ⟨r₁, hrun₁, hskeleton₁, hleads₁⟩ := hids id List.mem_cons_self r hr
    obtain ⟨r₂, hrun₂, hskeleton₂, hleads₂⟩ :=
      ih (fun id hid => hids id (List.mem_cons_of_mem _ hid)) hskeleton₁
    refine ⟨r₂, ?_, hskeleton₂, ?_⟩
    · rw [List.foldlM_cons, hrun₁]
      exact hrun₂
    · have hall := (hleads₁.below (ids.map .enter)).trans hleads₂
      rw [List.length_cons, Nat.succ_mul, Nat.add_comm]
      exact hall

theorem targets_leads (hwf : g.WellFormed) {pin : Option Nat}
    (htargets : ∀ target ∈ targets g id pin, Simulates g depth bound target)
    {r : Run} (hr : r.graph.skeleton = g.skeleton) :
    ∃ r', (targets r.graph id pin).foldlM (execute depth) r = some r' ∧
      r'.graph.skeleton = g.skeleton ∧
      Leads (g.connections.size * bound) r (enterAll r.graph id pin) r' [] := by
  rw [enterAll_eq_targets hwf hr, targets_of_skeleton hr]
  obtain ⟨r', hrun, hskeleton, hleads⟩ := foldlM_leads htargets hr
  have hcount := Nat.mul_le_mul_right bound (length_targets_le g id pin)
  exact ⟨r', hrun, hskeleton, hleads.mono hcount⟩

/-- All remaining passes of a loop, and what is executed after them. -/
theorem passes_lead (hwf : g.WellFormed) (hnext : ∀ pin,
      ∀ target ∈ targets g id pin, Simulates g depth bound target)
    {first limit index body completed : Nat}
    (hflow : (g.node? id).map Node.flow = some (.loop first limit index body completed))
    (next last : Int32) {r : Run} (hr : r.graph.skeleton = g.skeleton) :
    ∃ r₁ r₂, (passes next last).foldlM
        (fun r number =>
          (targets (showIndex r id index number).graph id (some body)).foldlM (execute depth)
            (showIndex r id index number)) r = some r₁ ∧
      (targets r₁.graph id (some completed)).foldlM (execute depth) r₁ = some r₂ ∧
      r₂.graph.skeleton = g.skeleton ∧
      Leads (((passes next last).length + 1) * (1 + g.connections.size * bound)) r
        [.pass id next last] r₂ [] := by
  induction hpasses : passes next last generalizing next r with
  | nil =>
    have hend : ¬ next < last := by
      intro hlt
      rw [passes_eq_cons hlt] at hpasses
      cases hpasses
    obtain ⟨r₂, hrun, hskeleton, hleads⟩ := targets_leads hwf (hnext (some completed)) hr
    refine ⟨r, r₂, rfl, hrun, hskeleton, ?_⟩
    rw [List.length_nil, Nat.zero_add, Nat.one_mul]
    exact (leads_pass_completed ((Graph.flow_of_skeleton hr id).trans hflow) hend).trans hleads
  | cons number rest ih =>
    have hlt : next < last := by
      by_contra hend
      rw [passes_eq_nil hend] at hpasses
      cases hpasses
    obtain ⟨rfl, hrest⟩ := List.cons.inj ((passes_eq_cons hlt).symm.trans hpasses)
    have hshown : (showIndex r id index next).graph.skeleton = g.skeleton := by
      rw [← hr]
      exact Graph.skeleton_setOutput r.graph id index _
    obtain ⟨r', hbody, hskeleton', hleads'⟩ := targets_leads hwf (hnext (some body)) hshown
    obtain ⟨r₁, r₂, hothers, hcompleted, hskeleton, hleads⟩ := ih (next + 1) hskeleton' hrest
    refine ⟨r₁, r₂, ?_, hcompleted, hskeleton, ?_⟩
    · rw [List.foldlM_cons, hbody]
      exact hothers
    · have hpass := leads_pass_body ((Graph.flow_of_skeleton hr id).trans hflow) hlt
      have hall := (hpass.trans (hleads'.below [.pass id (next + 1) last])).trans hleads
      rw [List.length_cons, Nat.succ_mul, Nat.add_comm]
      exact hall

/-- More steps than it takes to enter a node, to work off all that follows it, each
target within the bound, and to leave it. -/
theorem node_leads (hwf : g.WellFormed) (hlive : g.hasNode id = true)
    (hnext : ∀ pin, ∀ target ∈ targets g id pin, Simulates g depth bound target) :
    Simulates g (depth + 1) (0x100000000 * (1 + g.connections.size * bound) + 2) id := by
  intro r hr
  have hentered : (enter r id).graph.skeleton = g.skeleton := (skeleton_enter r id).trans hr
  obtain ⟨n, hn⟩ := Option.isSome_iff_exists.1
    ((Graph.hasNode_of_skeleton hentered id).trans hlive)
  have hid : n.id = id := Table.key_of_find? hn
  have hstep := leads_enter ((Graph.hasNode_of_skeleton hr id).trans hlive) hn
  rw [execute]
  simp only [hn]
  rw [continuation, hid] at hstep
  cases hflow : n.flow with
  | sequence =>
    rw [hflow] at hstep
    obtain ⟨finished, hrun, hskeleton, hleads⟩ := targets_leads hwf (hnext none) hentered
    have hall := leads_through hstep hleads
    refine ⟨leave finished id, ?_, ?_, hall.mono (by omega)⟩
    · rw [hrun]
      rfl
    · exact (skeleton_leave finished id).trans hskeleton
  | branch condition onTrue onFalse =>
    rw [hflow] at hstep
    obtain ⟨finished, hrun, hskeleton, hleads⟩ := targets_leads hwf
      (hnext (some (if n.memory.inputs.getD condition .bool false then onTrue else onFalse)))
      hentered
    have hall := leads_through hstep hleads
    refine ⟨leave finished id, ?_, ?_, hall.mono (by omega)⟩
    · dsimp only
      rw [hrun]
      rfl
    · exact (skeleton_leave finished id).trans hskeleton
  | loop first limit index body completed =>
    rw [hflow] at hstep
    set start : Int32 := n.memory.inputs.getD first .int (0 : Int32)
    set stop : Int32 := n.memory.inputs.getD limit .int (0 : Int32)
    have hflow' : (g.node? id).map Node.flow = some (.loop first limit index body completed) := by
      rw [← Graph.flow_of_skeleton hentered id, hn, Option.map_some, hflow]
    have hlooping : ((enter r id).record (.looping id start stop)).graph.skeleton =
        g.skeleton := hentered
    obtain ⟨looped, finished, hpasses, hrun, hskeleton, hleads⟩ :=
      passes_lead hwf hnext hflow' start stop hlooping
    have hall := leads_through hstep hleads
    have hcount : ((passes start stop).length + 1) * (1 + g.connections.size * bound) ≤
        0x100000000 * (1 + g.connections.size * bound) :=
      Nat.mul_le_mul_right _ (length_passes_lt start stop)
    refine ⟨leave finished id, ?_, ?_, hall.mono (by omega)⟩
    · dsimp only
      rw [hpasses, Option.bind_eq_bind, Option.bind_some]
      rw [hrun]
      rfl
    · exact (skeleton_leave finished id).trans hskeleton

theorem Simulates.mono {bound' : Nat} (h : Simulates g depth bound id) (hbound : bound ≤ bound') :
    Simulates g depth bound' id := by
  intro r hr
  obtain ⟨r', hrun, hskeleton, hleads⟩ := h r hr
  exact ⟨r', hrun, hskeleton, hleads.mono hbound⟩

/-- The number of steps spent on one level of nodes, for each step of the level below. -/
def levelBound (g : Graph) : Nat := 0x100000000 * (g.connections.size + 1) + 2

theorem node_bound_le (g : Graph) {below : Nat} (hbelow : 1 ≤ below) :
    0x100000000 * (1 + g.connections.size * below) + 2 ≤ below * levelBound g := by
  calc 0x100000000 * (1 + g.connections.size * below) + 2
      ≤ 0x100000000 * (below + g.connections.size * below) + 2 * below := by omega
    _ = below * levelBound g := by
        rw [levelBound]
        ring

/-- In a well-formed graph the machine follows the recursion from every live node, to any
depth that no path exceeds. -/
theorem simulates_of_within (hwf : g.WellFormed) {levels : Nat} (hdepth : levels ≤ depth)
    (hwithin : Reach.Within (Connection.edges g.connections.rows) levels id)
    (hlive : g.hasNode id = true) : Simulates g depth (levelBound g ^ levels) id := by
  induction levels generalizing depth id with
  | zero => cases hwithin
  | succ levels ih =>
    cases depth with
    | zero => cases hdepth
    | succ depth =>
      have hnext : ∀ pin, ∀ target ∈ targets g id pin,
          Simulates g depth (levelBound g ^ levels) target := by
        intro pin target htarget
        have hedge := edge_of_mem_targets htarget
        exact ih (Nat.le_of_succ_le_succ hdepth) (hwithin target hedge)
          (hwf.hasNode_of_edge hedge)
      have hpos : 1 ≤ levelBound g ^ levels := Nat.one_le_pow _ _ (by simp [levelBound])
      rw [pow_succ]
      exact (node_leads hwf hlive hnext).mono (node_bound_le g hpos)

/-! ## Whole executions -/

theorem finish?_of_leads {bound : Nat} {r r' : Run} {todo : List Pending}
    (h : Leads bound r todo r' []) {limit : Nat} (hlimit : bound < limit) :
    Machine.finish? limit ⟨r, todo⟩ = some r' := by
  obtain ⟨steps, hsteps, hrun⟩ := h
  have hmachine := hrun []
  rw [List.append_nil, List.append_nil] at hmachine
  exact Machine.finish?_eq_some hmachine (by omega)

/-- Executing a node of a well-formed graph with the machine is executing it by recursion:
the recursion ends, whatever limit on its depth is set as long as that is at least the
number of nodes, and all that it leaves (the stores and marks of all nodes, the journal of
copies, invocations and lines, and with it the counts) is what the machine leaves. -/
theorem execute_eq_recursion (hwf : g.WellFormed) {start : NodeId}
    (hlive : g.hasNode start = true) (hdepth : g.nodes.size ≤ depth) :
    execute depth (Run.record { graph := g } (.executing start)) start =
        some (g.execute start).toRun ∧
      (g.execute start).result = .ok () := by
  obtain ⟨r, hrun, -, hleads⟩ := simulates_of_within hwf hdepth (hwf.within hlive) hlive
    (Run.record { graph := g } (.executing start)) rfl
  have hbound : levelBound g ^ g.nodes.size < stepBound g := by
    have hbase : 1 < levelBound g := by
      rw [levelBound]
      omega
    exact Nat.pow_lt_pow_right hbase (Nat.lt_succ_self _)
  have hmachine : g.execute start = r.answer (.ok ()) := by
    rw [Graph.execute, Run.execute, if_pos hlive, finish?_of_leads hleads hbound]
  rw [hrun, hmachine]
  exact ⟨rfl, rfl⟩

/-- The recursion goes three times into the body of the loop, and shows the number of the last
pass in the end. -/
theorem execute_eq_recursion_counting :
    Graph.counting.WellFormed ∧ Graph.counting.hasNode ⟨0⟩ = true ∧
      execute 3 (Run.record { graph := .counting } (.executing ⟨0⟩)) ⟨0⟩ =
        some (Graph.counting.execute ⟨0⟩).toRun ∧
      (Graph.counting.execute ⟨0⟩).stats.invoked = 5 ∧
      ((Graph.counting.execute ⟨0⟩).graph.node? ⟨1⟩).bind (·.memory.outputs.get? 2) =
        some (.int 2) := by
  have hwf : Graph.counting.WellFormed := by decide
  have hlive : Graph.counting.hasNode ⟨0⟩ = true := rfl
  have hdepth : Graph.counting.nodes.size ≤ 3 := by decide
  have hrun := (execute_eq_recursion hwf hlive hdepth).1
  exact ⟨hwf, hlive, hrun, by rfl, by rfl⟩

end FlowGraph.Recursion
