import FlowGraph.Proofs.DepthFirst
import Mathlib.Algebra.Order.BigOperators.Group.List

/-!
# Every execution ends

Each entry of the stack is given a weight.  The entering of a node weighs more than all
that can take its place: the passes of a loop, of which there are fewer than 2³² whatever
bounds are read, or the entering of successors, which lie lower in the graph.  A pass
weighs more than the entering of what it leads to together with the passes that remain.
So every step makes the stack lighter, whatever the behaviors write, and the stack is
empty after no more steps than it weighs.
-/

namespace FlowGraph.Execution

open Recursion

/-- The number of live nodes to which a path leads from a node, the node itself
included. -/
def height (g : Graph) (id : NodeId) : Nat :=
  g.nodeIds.countP fun b => Reach.Path (Connection.edges g.connections.rows) id b

/-- The entering of the successors of a node does not weigh more than this: there are no
more of them than connections, and each lies lower than the node. -/
def successorsBound (g : Graph) (id : NodeId) : Nat :=
  g.connections.size * levelBound g ^ (height g id - 1)

/-- What is still to be done, weighed by the steps that it can take. -/
def weight (g : Graph) : Pending → Nat
  | .enter id => levelBound g ^ height g id
  | .leave _ => 1
  | .pass id next limit => ((passes next limit).length + 1) * (1 + successorsBound g id)

def stackWeight (g : Graph) (stack : List Pending) : Nat := (stack.map (weight g)).sum

variable {g : Graph} {id : NodeId} {pin : Option Nat} {r : Run} {m : Machine}
  {stack : List Pending}

/-! ## Height -/

theorem countP_lt_countP {α : Type} {p q : α → Bool} {l : List α} {a : α} (ha : a ∈ l)
    (himp : ∀ b, p b = true → q b = true) (hp : p a = false) (hq : q a = true) :
    l.countP p < l.countP q := by
  have hmono : ∀ l : List α, l.countP p ≤ l.countP q :=
    fun l => List.countP_mono_left fun b _ => himp b
  obtain ⟨before, after, rfl⟩ := List.append_of_mem ha
  have hbefore := hmono before
  have hafter := hmono after
  simp only [List.countP_append, List.countP_cons, hp, hq, if_true, Bool.false_eq_true, if_false]
  omega

/-- An edge leads down: nothing that lies behind it leads back to where it starts. -/
theorem height_lt_of_edge (hwf : g.WellFormed) {a b : NodeId} (hlive : g.hasNode a = true)
    (hedge : (a, b) ∈ Connection.edges g.connections.rows) : height g b < height g a := by
  apply countP_lt_countP (Graph.mem_nodeIds_of_hasNode hlive)
  · intro c hc
    rw [decide_eq_true_iff] at hc ⊢
    exact Relation.ReflTransGen.head hedge hc
  · rw [decide_eq_false_iff_not]
    intro hback
    exact hwf.acyclic a (Relation.TransGen.head' hedge hback)
  · exact decide_eq_true Relation.ReflTransGen.refl

theorem height_le (g : Graph) (id : NodeId) : height g id ≤ g.nodes.size := by
  rw [← Graph.length_nodeIds]
  exact List.countP_le_length

theorem height_pos (hlive : g.hasNode id = true) : 0 < height g id :=
  List.countP_pos_iff.2
    ⟨id, Graph.mem_nodeIds_of_hasNode hlive, decide_eq_true Relation.ReflTransGen.refl⟩

/-! ## Weight -/

theorem levelBound_pos (g : Graph) : 0 < levelBound g := by
  rw [levelBound]
  omega

theorem weight_pos (g : Graph) (p : Pending) : 0 < weight g p := by
  cases p with
  | enter id => exact Nat.pow_pos (levelBound_pos g)
  | leave id => exact Nat.one_pos
  | pass id next limit => exact Nat.mul_pos (Nat.succ_pos _) (by omega)

@[simp]
theorem weight_leave (g : Graph) (id : NodeId) : weight g (.leave id) = 1 := rfl

theorem weight_pass (g : Graph) (id : NodeId) (next limit : Int32) :
    weight g (.pass id next limit) =
      ((passes next limit).length + 1) * (1 + successorsBound g id) :=
  rfl

@[simp]
theorem stackWeight_nil (g : Graph) : stackWeight g [] = 0 := rfl

@[simp]
theorem stackWeight_cons (g : Graph) (p : Pending) (stack : List Pending) :
    stackWeight g (p :: stack) = weight g p + stackWeight g stack := by
  rw [stackWeight, List.map_cons, List.sum_cons, stackWeight]

@[simp]
theorem stackWeight_append (g : Graph) (above below : List Pending) :
    stackWeight g (above ++ below) = stackWeight g above + stackWeight g below := by
  rw [stackWeight, List.map_append, List.sum_append, stackWeight, stackWeight]

theorem stackWeight_enterAll_le (hwf : g.WellFormed) (hr : r.graph.skeleton = g.skeleton)
    (hlive : g.hasNode id = true) (pin : Option Nat) :
    stackWeight g (enterAll r.graph id pin) ≤ successorsBound g id := by
  rw [enterAll_eq_targets hwf hr]
  have hlight : ∀ w ∈ ((targets g id pin).map .enter).map (weight g),
      w ≤ levelBound g ^ (height g id - 1) := by
    intro w hw
    rw [List.map_map] at hw
    obtain ⟨target, htarget, rfl⟩ := List.mem_map.1 hw
    have hlower := height_lt_of_edge hwf hlive (edge_of_mem_targets htarget)
    exact Nat.pow_le_pow_right (levelBound_pos g) (by omega)
  have hsum := List.sum_le_card_nsmul _ _ hlight
  rw [List.length_map, List.length_map] at hsum
  exact hsum.trans (Nat.mul_le_mul_right _ (length_targets_le g id pin))

/-- The entering of a node outweighs every loop over its successors. -/
theorem successorsBound_lt_weight (hlive : g.hasNode id = true) :
    0x100000000 * (1 + successorsBound g id) + 2 ≤ weight g (.enter id) := by
  calc 0x100000000 * (1 + successorsBound g id) + 2
      ≤ levelBound g ^ (height g id - 1) * levelBound g :=
        node_bound_le g (Nat.pow_pos (levelBound_pos g))
    _ = weight g (.enter id) := by
        rw [← pow_succ, Nat.sub_add_cancel (height_pos hlive), weight]

/-- What follows the invocation of a node weighs less than its entering, by more than
the leaving of it. -/
theorem stackWeight_continuation_lt (hwf : g.WellFormed) (hr : r.graph.skeleton = g.skeleton)
    {n : Node} (hlive : g.hasNode n.id = true) :
    stackWeight g (continuation r n).2 + 1 < weight g (.enter n.id) := by
  have hroom := successorsBound_lt_weight hlive
  rw [continuation]
  split
  next =>
    have hall := stackWeight_enterAll_le hwf hr hlive none
    dsimp only
    omega
  next condition onTrue onFalse _ =>
    have hall := stackWeight_enterAll_le hwf hr hlive
      (some (if n.memory.inputs.getD condition .bool false then onTrue else onFalse))
    dsimp only
    omega
  next first limit _ _ _ _ =>
    have hcount := Nat.mul_le_mul_right (1 + successorsBound g n.id)
      (length_passes_lt (n.memory.inputs.getD first .int (0 : Int32))
        (n.memory.inputs.getD limit .int (0 : Int32)))
    rw [Nat.succ_eq_add_one] at hcount
    simp only [stackWeight_cons, stackWeight_nil, weight_pass]
    omega

/-! ## Steps -/

theorem stackWeight_enter_lt (hwf : g.WellFormed) (hr : r.graph.skeleton = g.skeleton)
    (id : NodeId) (stack : List Pending) :
    stackWeight g (Execution.enter r id stack).stack < stackWeight g (.enter id :: stack) := by
  have hpos := weight_pos g (.enter id)
  rw [Execution.enter, stackWeight_cons]
  dsimp only
  split
  next hlive =>
    split
    next => exact Nat.lt_add_of_pos_left hpos
    next n hn =>
      have hid : n.id = id := Table.key_of_find? hn
      rw [Graph.hasNode_of_skeleton ((skeleton_prepare r id).trans hr), ← hid] at hlive
      have hentered : (Recursion.enter r id).graph.skeleton = g.skeleton :=
        (Recursion.skeleton_enter r id).trans hr
      have hfollow := stackWeight_continuation_lt hwf hentered hlive
      rw [hid] at hfollow
      change stackWeight g ((continuation (Recursion.enter r id) n).2 ++ .leave id :: stack) < _
      rw [stackWeight_append, stackWeight_cons, weight_leave]
      omega
  next => exact Nat.lt_add_of_pos_left hpos

theorem stackWeight_pass_lt (hwf : g.WellFormed) (hr : r.graph.skeleton = g.skeleton)
    (id : NodeId) (next limit : Int32) (stack : List Pending) :
    stackWeight g (Execution.pass r id next limit stack).stack <
      stackWeight g (.pass id next limit :: stack) := by
  have hpos := weight_pos g (.pass id next limit)
  rw [Execution.pass, stackWeight_cons]
  split
  next first last index body completed hflow =>
    obtain ⟨n, hn, -⟩ := Option.map_eq_some_iff.1 hflow
    have hlive : g.hasNode id = true := by
      rw [← Graph.hasNode_of_skeleton hr, Graph.hasNode, hn, Option.isSome_some]
    split
    next hlt =>
      have hshown : (showIndex r id index next).graph.skeleton = g.skeleton :=
        (Graph.skeleton_setOutput r.graph id index _).trans hr
      have hbody := stackWeight_enterAll_le hwf hshown hlive (some body)
      have hrest : weight g (.pass id next limit) =
          weight g (.pass id (next + 1) limit) + (1 + successorsBound g id) := by
        rw [weight_pass, passes_eq_cons hlt, List.length_cons, Nat.succ_mul, weight_pass]
      change stackWeight g (enterAll (showIndex r id index next).graph id (some body) ++
        .pass id (next + 1) limit :: stack) < _
      rw [stackWeight_append, stackWeight_cons]
      omega
    next hend =>
      have hcompleted := stackWeight_enterAll_le hwf hr hlive (some completed)
      rw [stackWeight_append, weight_pass, passes_eq_nil hend, List.length_nil, Nat.zero_add,
        Nat.one_mul]
      omega
  next => exact Nat.lt_add_of_pos_left hpos

/-- Every step makes the stack lighter. -/
theorem stackWeight_step_lt (hwf : g.WellFormed) (hm : m.run.graph.skeleton = g.skeleton)
    (hstack : m.stack ≠ []) : stackWeight g m.step.stack < stackWeight g m.stack := by
  obtain ⟨r, _ | ⟨top, stack⟩⟩ := m
  · exact absurd rfl hstack
  · cases top with
    | enter id => exact stackWeight_enter_lt hwf hm id stack
    | leave id =>
      rw [stackWeight_cons]
      exact Nat.lt_add_of_pos_left (weight_pos g (.leave id))
    | pass id next limit => exact stackWeight_pass_lt hwf hm id next limit stack

/-! ## Whole executions -/

/-- In a well-formed graph every stack is worked off, whatever it holds. -/
theorem exists_halts (hwf : g.WellFormed) (hm : m.run.graph.skeleton = g.skeleton) :
    ∃ steps ≤ stackWeight g m.stack, ∃ r, m.Halts steps r := by
  induction hweight : stackWeight g m.stack using Nat.strong_induction_on generalizing m with
  | _ total ih =>
    by_cases hstack : m.stack = []
    · exact ⟨0, Nat.zero_le _, m.run, .of_empty hstack⟩
    · have hlighter := stackWeight_step_lt hwf hm hstack
      rw [hweight] at hlighter
      obtain ⟨steps, hsteps, r, hhalts⟩ := ih _ hlighter ((skeleton_step m).trans hm) rfl
      exact ⟨steps + 1, by omega, r, hhalts.of_step hstack⟩

/-- The entering of a node weighs less than the limit on the length of an execution. -/
theorem stackWeight_enter_lt_stepBound (g : Graph) (start : NodeId) :
    stackWeight g [.enter start] < stepBound g := by
  calc stackWeight g [.enter start]
      = levelBound g ^ height g start := by simp [stackWeight, weight]
    _ ≤ levelBound g ^ g.nodes.size :=
        Nat.pow_le_pow_right (levelBound_pos g) (height_le g start)
    _ < stepBound g := by
        apply Nat.pow_lt_pow_right _ (Nat.lt_succ_self _)
        rw [levelBound]
        omega

/-- The limit is not met by what weighs less. -/
theorem exists_finish? (hwf : g.WellFormed) (hm : m.run.graph.skeleton = g.skeleton) {limit : Nat}
    (hlimit : stackWeight g m.stack < limit) : ∃ r, m.finish? limit = some r := by
  obtain ⟨steps, hsteps, r, hhalts⟩ := exists_halts hwf hm
  exact ⟨r, Machine.finish?_eq_some hhalts.last (hsteps.trans_lt hlimit)⟩

/-- An execution from a live node of a well-formed graph halts within the limit. -/
theorem exists_execute_eq_ok {r : Run} (hwf : r.graph.WellFormed) {start : NodeId}
    (hlive : r.graph.hasNode start = true) : ∃ out, r.execute start = .ok out := by
  obtain ⟨steps, hsteps, out, hhalts⟩ := exists_halts (m := r.launch start) hwf rfl
  have hbound := hsteps.trans_lt (stackWeight_enter_lt_stepBound r.graph start)
  exact ⟨out, Run.execute_eq_ok_iff.2 ⟨hlive, steps, hbound, hhalts⟩⟩

/-- Executing a live node of a well-formed graph ends, whatever behaviors the nodes have,
whatever bounds its loops read and whatever the settings are: the stack is empty after some
number of steps and not before, the limit on the length of an execution is not met, and
what the machine has done by then is the answer. -/
theorem execution_ends (hwf : g.WellFormed) {start : NodeId} (hlive : g.hasNode start = true) :
    ∃ steps < stepBound g, ∃ r,
      Machine.step^[steps] ⟨Run.record { graph := g } (.executing start), [.enter start]⟩ =
          ⟨r, []⟩ ∧
        (∀ earlier < steps, (Machine.step^[earlier]
          ⟨Run.record { graph := g } (.executing start), [.enter start]⟩).stack ≠ []) ∧
        g.execute start = r.answer (.ok ()) := by
  obtain ⟨r, hrun⟩ := exists_execute_eq_ok (r := { graph := g }) hwf hlive
  obtain ⟨-, steps, hbound, hhalts⟩ := Run.execute_eq_ok_iff.1 hrun
  refine ⟨steps, hbound, r, hhalts.last, hhalts.busy, ?_⟩
  rw [Graph.execute, hrun]

/-- The loop makes three passes, in each of which the branch is entered. -/
theorem execution_ends_counting :
    Graph.counting.WellFormed ∧ Graph.counting.hasNode ⟨0⟩ = true ∧
      (Graph.counting.execute ⟨0⟩).result = .ok () ∧
      (Graph.counting.execute ⟨0⟩).stats.invoked = 5 := by
  have hwf : Graph.counting.WellFormed := by decide
  have hlive : Graph.counting.hasNode ⟨0⟩ = true := rfl
  obtain ⟨_, -, r, -, -, hanswer⟩ := execution_ends hwf hlive
  have hinvoked : (Graph.counting.execute ⟨0⟩).stats.invoked = 5 := by rfl
  exact ⟨hwf, hlive, by rw [hanswer]; rfl, hinvoked⟩

end FlowGraph.Execution
