import FlowGraph.Proofs.Skeleton
import Mathlib.Tactic.NormNum
import Mathlib.Tactic.Ring

/-!
# Execution by recursion

Execution as the flow roles describe it: a node is entered, what follows it runs to its
end in the order of the connections, and then the node is left.  The definition knows no
stack and no number of steps.  It only limits how many nodes may be entered within one
another, and `none` means that this limit was met.
-/

namespace FlowGraph.Recursion

open Execution

/-- The targets of the exec connections that leave a node, from all of its pins or from
one. -/
def targets (g : Graph) (node : NodeId) (pin : Option Nat) : List NodeId :=
  (g.connections.rows.filter fun c =>
    c.source == node && pin.all (c.sourcePin == ·) && g.carriesExec c.toLink).map
      fun c => c.target

/-- The numbers from `first` up to, but not including, `limit`. -/
def passes (first limit : Int32) : List Int32 :=
  (List.range (limit.toInt - first.toInt).toNat).map fun k : Nat => .ofInt (first.toInt + k)

/-- Refresh what a node depends on if the settings say so, mark it and invoke it. -/
def enter (r : Run) (id : NodeId) : Run :=
  let prepared := prepare r id
  Run.invoke { prepared with graph := prepared.graph.setActive id true } id

theorem skeleton_enter (r : Run) (id : NodeId) :
    (enter r id).graph.skeleton = r.graph.skeleton := by
  rw [enter, Run.skeleton_invoke, Graph.skeleton_setActive, skeleton_prepare]

/-- Take the mark from a node. -/
def leave (r : Run) (id : NodeId) : Run := { r with graph := r.graph.setActive id false }

theorem skeleton_leave (r : Run) (id : NodeId) :
    (leave r id).graph.skeleton = r.graph.skeleton :=
  Graph.skeleton_setActive r.graph id false

/-- Show the number of a pass at the index output of a loop. -/
def showIndex (r : Run) (id : NodeId) (index : Nat) (number : Int32) : Run :=
  { r with graph := r.graph.setOutput id index (.int number) }

/-- Execute a node and everything that follows it, with at most the given number of nodes
entered within one another. -/
def execute : Nat → Run → NodeId → Option Run
  | 0, _, _ => none
  | depth + 1, r, id =>
    let entered := enter r id
    match entered.graph.node? id with
    | none => some entered
    | some n => do
      let finished ←
        match n.flow with
        | .sequence => (targets entered.graph id none).foldlM (execute depth) entered
        | .branch condition onTrue onFalse =>
          let taken := if n.memory.inputs.getD condition .bool false then onTrue else onFalse
          (targets entered.graph id (some taken)).foldlM (execute depth) entered
        | .loop first limit index body completed => do
          let first := n.memory.inputs.getD first .int (0 : Int32)
          let limit := n.memory.inputs.getD limit .int (0 : Int32)
          let looped ← (passes first limit).foldlM
            (fun r number =>
              let shown := showIndex r id index number
              (targets shown.graph id (some body)).foldlM (execute depth) shown)
            (entered.record (.looping id first limit))
          (targets looped.graph id (some completed)).foldlM (execute depth) looped
      some (leave finished id)

/-! ## Passes -/

theorem passes_eq_nil {first limit : Int32} (h : ¬ first < limit) : passes first limit = [] := by
  rw [Int32.lt_iff_toInt_lt, not_lt] at h
  rw [passes, Int.toNat_of_nonpos (by omega)]
  rfl

theorem toInt_add_one {first limit : Int32} (h : first < limit) :
    (first + 1).toInt = first.toInt + 1 := by
  rw [Int32.lt_iff_toInt_lt] at h
  have hlow := first.le_toInt
  have hhigh := limit.toInt_lt
  rw [Int32.toInt_add, Int32.toInt_one]
  exact Int.bmod_eq_of_le (by norm_num; omega) (by norm_num; omega)

theorem passes_eq_cons {first limit : Int32} (h : first < limit) :
    passes first limit = first :: passes (first + 1) limit := by
  have hnext := toInt_add_one h
  rw [Int32.lt_iff_toInt_lt] at h
  have hcount : (limit.toInt - first.toInt).toNat =
      (limit.toInt - (first + 1).toInt).toNat + 1 := by omega
  rw [passes, hcount, List.range_succ_eq_map, List.map_cons, List.map_map, passes]
  congr 1
  · simp
  · apply List.map_congr_left
    intro k _
    rw [Function.comp_apply, hnext]
    congr 1
    push_cast
    ring

/-- The passes count from the first bound up to the limit, and there are none if the limit
is not above. -/
theorem map_toInt_passes (first limit : Int32) :
    (passes first limit).map Int32.toInt =
      (List.range (limit.toInt - first.toInt).toNat).map fun k : Nat => first.toInt + k := by
  rw [passes, List.map_map]
  apply List.map_congr_left
  intro k hk
  have hbelow := List.mem_range.1 hk
  have hlow := first.le_toInt
  have hhigh := limit.toInt_lt
  rw [Function.comp_apply, Int32.toInt_ofInt]
  exact Int.bmod_eq_of_le (by norm_num; omega) (by norm_num; omega)

theorem length_passes (first limit : Int32) :
    (passes first limit).length = (limit.toInt - first.toInt).toNat := by
  rw [passes, List.length_map, List.length_range]

theorem length_passes_lt (first limit : Int32) : (passes first limit).length < 2 ^ 32 := by
  have hlow := first.le_toInt
  have hhigh := limit.toInt_lt
  rw [length_passes]
  omega

/-! ## Targets -/

variable {g g' : Graph} {node target : NodeId} {pin : Option Nat}

theorem edge_of_mem_targets (h : target ∈ targets g node pin) :
    (node, target) ∈ Connection.edges g.connections.rows := by
  obtain ⟨c, hc, rfl⟩ := List.mem_map.1 h
  obtain ⟨hstored, hleaves⟩ := List.mem_filter.1 hc
  simp only [Bool.and_eq_true, beq_iff_eq] at hleaves
  rw [← hleaves.1.1]
  exact Connection.mem_edges hstored

theorem length_targets_le (g : Graph) (node : NodeId) (pin : Option Nat) :
    (targets g node pin).length ≤ g.connections.size := by
  rw [targets, List.length_map]
  exact List.length_filter_le _ _

theorem targets_of_skeleton (h : g.skeleton = g'.skeleton) (node : NodeId) (pin : Option Nat) :
    targets g node pin = targets g' node pin := by
  have hcarries : ∀ l, g.carriesExec l = g'.carriesExec l := by
    intro l
    rw [← Graph.carriesExec_skeleton g, h, Graph.carriesExec_skeleton]
  simp only [targets, hcarries, Graph.connections_eq_of_skeleton h]

/-- In a well-formed graph every exec target is live and differs from the source. -/
theorem successors_eq_targets (hwf : g.WellFormed) (node : NodeId) (pin : Option Nat) :
    successors g node pin = targets g node pin := by
  rw [successors, targets]
  congr 1
  apply List.filter_congr
  intro c hc
  have htarget : g.hasNode c.target = true := hwf.hasNode_target hc
  have hne : (c.target != c.source) = true := bne_iff_ne.2 (hwf.target_ne_source hc)
  cases hsource : c.source == node with
  | false => rfl
  | true =>
    rw [← beq_iff_eq.1 hsource, hne, htarget, Bool.and_true, Bool.and_true]

theorem enterAll_eq_targets {r : Run} (hwf : g.WellFormed) (hr : r.graph.skeleton = g.skeleton) :
    enterAll r.graph node pin = (targets g node pin).map .enter := by
  rw [enterAll, successors_eq_targets (hwf.of_skeleton hr), targets_of_skeleton hr]

end FlowGraph.Recursion
