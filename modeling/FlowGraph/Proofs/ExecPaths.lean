import FlowGraph.Proofs.Recursion
import Mathlib.Algebra.BigOperators.Ring.List
import Mathlib.Data.List.Nodup

/-!
# Paths of exec connections

Exec connections that follow each other form a path from the node at which the first one
starts to the node at which the last one ends.  In a graph without cycles there are finitely
many paths from one node to another, and they are listed here.  A connection weighs as much
as execution goes along it each time its source is entered, if the inputs that decide this
hold what they hold now; a path weighs the product of its connections.  The sum of all paths
from a node follows from the sums of the paths from its targets.
-/

namespace FlowGraph

/-- How often execution goes on from an output when the node is entered once: in each pass of
a loop and at its end, if the output serves as both. -/
def Node.pinWeight (n : Node) (pin : Nat) : Nat :=
  match n.flow with
  | .sequence => 1
  | .branch condition onTrue onFalse =>
    let taken := if n.memory.inputs.getD condition .bool false then onTrue else onFalse
    if pin = taken then 1 else 0
  | .loop first limit _ body completed =>
    let first := n.memory.inputs.getD first .int (0 : Int32)
    let limit := n.memory.inputs.getD limit .int (0 : Int32)
    (if pin = body then (limit.toInt - first.toInt).toNat else 0) +
      if pin = completed then 1 else 0

namespace Graph

/-- The exec connections that leave a node. -/
def execOutgoing (g : Graph) (id : NodeId) : List Connection :=
  g.connections.rows.filter fun c => c.source == id && g.carriesExec c.toLink

/-- Consecutive exec connections that lead from one node to another.  No connection at all
leads from a node to itself. -/
inductive ExecPath (g : Graph) (last : NodeId) : NodeId → List Connection → Prop
  | here : ExecPath g last last []
  | along {id : NodeId} {c : Connection} {path : List Connection} (hc : c ∈ g.execOutgoing id)
      (hrest : ExecPath g last c.target path) : ExecPath g last id (c :: path)

/-- The paths that go through at most the given number of nodes. -/
def execPathsWithin (g : Graph) (last : NodeId) : Nat → NodeId → List (List Connection)
  | 0, _ => []
  | depth + 1, id =>
    (if id = last then [[]] else []) ++
      (g.execOutgoing id).flatMap fun c => (execPathsWithin g last depth c.target).map (c :: ·)

/-- The paths from one node to another: without cycles they go through every node once at
most. -/
def execPaths (g : Graph) (start last : NodeId) : List (List Connection) :=
  g.execPathsWithin last g.nodes.size start

/-- How often execution goes along a connection when its source is entered once. -/
def execWeight (g : Graph) (c : Connection) : Nat :=
  match g.node? c.source with
  | none => 0
  | some n => n.pinWeight c.sourcePin

def pathWeight (g : Graph) (path : List Connection) : Nat := (path.map g.execWeight).prod

/-- The weight of all paths from one node to another. -/
def pathSum (g : Graph) (start last : NodeId) : Nat :=
  ((g.execPaths start last).map g.pathWeight).sum

variable {g : Graph} {id start last : NodeId} {c : Connection} {path : List Connection}
  {depth : Nat}

/-! ## The list of all paths -/

theorem mem_execOutgoing_iff :
    c ∈ g.execOutgoing id ↔
      c ∈ g.connections.rows ∧ c.source = id ∧ g.carriesExec c.toLink = true := by
  rw [execOutgoing, List.mem_filter, Bool.and_eq_true, beq_iff_eq]

theorem edge_of_mem_execOutgoing (hc : c ∈ g.execOutgoing id) :
    (id, c.target) ∈ Connection.edges g.connections.rows := by
  obtain ⟨hstored, rfl, -⟩ := mem_execOutgoing_iff.1 hc
  exact Connection.mem_edges hstored

/-- A path goes on along one more connection. -/
theorem ExecPath.concat (h : g.ExecPath last id path) (hc : c ∈ g.execOutgoing last) :
    g.ExecPath c.target id (path ++ [c]) := by
  induction h with
  | here => exact .along hc .here
  | along hfirst _ ih => exact .along hfirst ih

theorem nodup_execOutgoing (g : Graph) (id : NodeId) : (g.execOutgoing id).Nodup :=
  (List.Nodup.of_map Connection.id g.connections.nodup_keys).filter _

/-- No path is listed twice. -/
theorem nodup_execPathsWithin (g : Graph) (last : NodeId) (depth : Nat) (id : NodeId) :
    (g.execPathsWithin last depth id).Nodup := by
  induction depth generalizing id with
  | zero => exact List.nodup_nil
  | succ depth ih =>
    rw [execPathsWithin]
    apply List.Nodup.append
    · split
      · exact List.nodup_singleton []
      · exact List.nodup_nil
    · apply List.nodup_flatMap.2
      constructor
      · intro c _
        exact (ih c.target).map (List.cons_injective (a := c))
      · apply (g.nodup_execOutgoing id).imp
        intro c d hne path hc hd
        obtain ⟨_, -, rfl⟩ := List.mem_map.1 hc
        obtain ⟨_, -, heq⟩ := List.mem_map.1 hd
        exact hne (List.cons.inj heq).1.symm
    · intro path hempty hlonger
      obtain ⟨c, -, hpath⟩ := List.mem_flatMap.1 hlonger
      obtain ⟨_, -, rfl⟩ := List.mem_map.1 hpath
      split at hempty <;> simp at hempty

theorem execPath_of_mem_execPathsWithin (h : path ∈ g.execPathsWithin last depth id) :
    g.ExecPath last id path := by
  induction depth generalizing id path with
  | zero => cases h
  | succ depth ih =>
    rw [execPathsWithin, List.mem_append, List.mem_flatMap] at h
    rcases h with hempty | ⟨c, hc, hpath⟩
    · split at hempty
      next hid =>
        rw [hid, List.mem_singleton.1 hempty]
        exact .here
      next => cases hempty
    · obtain ⟨rest, hrest, rfl⟩ := List.mem_map.1 hpath
      exact .along hc (ih hrest)

/-- Where no path goes through more nodes, all paths are listed. -/
theorem ExecPath.mem_execPathsWithin (h : g.ExecPath last id path)
    (hwithin : Reach.Within (Connection.edges g.connections.rows) depth id) :
    path ∈ g.execPathsWithin last depth id := by
  induction depth generalizing id path with
  | zero => cases hwithin
  | succ depth ih =>
    rw [execPathsWithin, List.mem_append, List.mem_flatMap]
    cases h with
    | here =>
      rw [if_pos rfl]
      exact .inl (List.mem_singleton_self [])
    | along hc hrest =>
      rename_i c rest
      have hlisted := ih hrest (hwithin c.target (edge_of_mem_execOutgoing hc))
      exact .inr ⟨c, hc, List.mem_map_of_mem hlisted⟩

/-- It makes no difference then if more nodes are allowed. -/
theorem execPathsWithin_succ
    (hwithin : Reach.Within (Connection.edges g.connections.rows) depth id) :
    g.execPathsWithin last (depth + 1) id = g.execPathsWithin last depth id := by
  induction depth generalizing id with
  | zero => cases hwithin
  | succ depth ih =>
    rw [execPathsWithin, execPathsWithin]
    congr 1
    apply List.flatMap_congr
    intro c hc
    rw [ih (hwithin c.target (edge_of_mem_execOutgoing hc))]

/-- A path that leads to a live node starts at one. -/
theorem ExecPath.hasNode_first (h : g.ExecPath last start path)
    (hlast : g.hasNode last = true) : g.hasNode start = true := by
  cases h with
  | here => exact hlast
  | along hc _ =>
    obtain ⟨-, rfl, hexec⟩ := mem_execOutgoing_iff.1 hc
    obtain ⟨pin, hpin, -⟩ := (Option.any_eq_true _ _).1 hexec
    exact hasNode_of_sourcePin? hpin

/-- In a well-formed graph all paths to a live node are listed, each of them once. -/
theorem WellFormed.mem_execPaths_iff (hwf : g.WellFormed) (hlast : g.hasNode last = true) :
    path ∈ g.execPaths start last ↔ g.ExecPath last start path := by
  constructor
  · exact execPath_of_mem_execPathsWithin
  · intro h
    exact h.mem_execPathsWithin (hwf.within (h.hasNode_first hlast))

theorem nodup_execPaths (g : Graph) (start last : NodeId) : (g.execPaths start last).Nodup :=
  g.nodup_execPathsWithin last _ start

/-- A path is empty or goes on after its first connection. -/
theorem WellFormed.execPaths_eq (hwf : g.WellFormed) (hlive : g.hasNode id = true) :
    g.execPaths id last =
      (if id = last then [[]] else []) ++
        (g.execOutgoing id).flatMap fun c => (g.execPaths c.target last).map (c :: ·) :=
  (execPathsWithin_succ (hwf.within hlive)).symm

/-! ## The weight of all paths -/

theorem pathWeight_cons (g : Graph) (c : Connection) (path : List Connection) :
    g.pathWeight (c :: path) = g.execWeight c * g.pathWeight path := by
  rw [pathWeight, List.map_cons, List.prod_cons, pathWeight]

/-- From elsewhere no path leads to a live node. -/
theorem pathSum_eq_zero (hlast : g.hasNode last = true)
    (hgone : ¬ g.hasNode start = true) : g.pathSum start last = 0 := by
  have hnone : g.execPaths start last = [] := by
    apply List.eq_nil_iff_forall_not_mem.2
    intro path hpath
    exact hgone ((execPath_of_mem_execPathsWithin hpath).hasNode_first hlast)
  rw [pathSum, hnone]
  rfl

/-- The sum over all paths from a node, by their first connections. -/
theorem WellFormed.pathSum_eq (hwf : g.WellFormed) (hlive : g.hasNode id = true)
    (last : NodeId) :
    g.pathSum id last =
      (if id = last then 1 else 0) +
        ((g.execOutgoing id).map fun c => g.execWeight c * g.pathSum c.target last).sum := by
  have hempty : ((if id = last then [[]] else []).map g.pathWeight).sum =
      if id = last then 1 else 0 := by
    split <;> rfl
  have hlonger : ∀ c : Connection,
      (((g.execPaths c.target last).map (c :: ·)).map g.pathWeight).sum =
        g.execWeight c * g.pathSum c.target last := by
    intro c
    rw [List.map_map, pathSum, ← List.sum_map_mul_left]
    simp only [Function.comp_def, pathWeight_cons]
  calc
    g.pathSum id last
      = ((if id = last then [[]] else []).map g.pathWeight).sum +
          (((g.execOutgoing id).flatMap fun c : Connection =>
            (g.execPaths c.target last).map (c :: ·)).map g.pathWeight).sum := by
        rw [pathSum, hwf.execPaths_eq hlive, List.map_append, List.sum_append]
    _ = (if id = last then 1 else 0) + ((g.execOutgoing id).map fun c : Connection =>
          (((g.execPaths c.target last).map (c :: ·)).map g.pathWeight).sum).sum := by
        rw [hempty, List.map_flatMap, List.flatMap_def, List.sum_flatten, List.map_map]
        rfl
    _ = (if id = last then 1 else 0) +
          ((g.execOutgoing id).map fun c => g.execWeight c * g.pathSum c.target last).sum := by
        simp only [hlonger]

end Graph

end FlowGraph
