import FlowGraph.Graph.Integrity
import FlowGraph.Proofs.Skeleton

/-!
# What removals take away

A removal takes connections out and then puts the inputs that they leave empty back to
their defaults.  Up to what nodes remember, the graph afterwards is the graph without the
connections, and a node goes together with the connections that touch it.
-/

namespace FlowGraph

namespace Graph

variable {g : Graph} {c : Connection} {l : Link}

/-- The graph without the connections that satisfy a condition. -/
def without (g : Graph) (p : Connection → Bool) : Graph :=
  { g with connections := g.connections.filter fun c => !p c }

theorem without_eq_self {p : Connection → Bool} (h : ∀ c ∈ g.connections.rows, p c = false) :
    g.without p = g := by
  have hall : ∀ c ∈ g.connections.rows, (!p c) = true := by
    intro c hc
    rw [h c hc]
    rfl
  rw [without, Table.filter_eq_self hall]

@[simp]
theorem skeleton_vacate (g : Graph) (l : Link) : (g.vacate l).skeleton = g.skeleton := by
  rw [vacate]
  split
  · rfl
  · exact skeleton_resetInput g _ _

theorem skeleton_disconnectWhere (g : Graph) (p : Connection → Bool) :
    (g.disconnectWhere p).graph.skeleton = (g.without p).skeleton := by
  rw [disconnectWhere]
  dsimp only
  split
  next hnone =>
    have hkept : ∀ c ∈ g.connections.rows, p c = false := by simpa using hnone
    rw [without_eq_self hkept]
  next =>
    exact Run.skeleton_foldl (fun r c => skeleton_vacate r.graph c.toLink) _ _

theorem skeleton_disconnect (g : Graph) (id : ConnectionId) :
    (g.disconnect id).1.skeleton = (g.without fun c => c.id = id).skeleton := by
  rw [disconnect]
  split
  next hnone =>
    have hkept : ∀ c ∈ g.connections.rows, decide (c.id = id) = false := by
      intro c hc
      exact decide_eq_false (Table.find?_eq_none_iff.1 hnone c hc)
    rw [without_eq_self hkept]
  next =>
    have herase : g.connections.erase id = g.connections.filter fun c => !decide (c.id = id) := by
      rw [Table.erase]
      congr 1
      funext c
      exact decide_not
    rw [skeleton_vacate, herase]
    rfl

theorem rows_disconnectWhere (g : Graph) (p : Connection → Bool) :
    (g.disconnectWhere p).graph.connections.rows = g.connections.rows.filter fun c => !p c := by
  rw [connections_eq_of_skeleton (skeleton_disconnectWhere g p)]
  rfl

/-- A cleanup is the removal of the connections that are reported. -/
theorem cleanup_eq_disconnectWhere (g : Graph) :
    g.cleanup.graph =
        (g.disconnectWhere fun c => c.id ∈ g.violations.map Violation.connection).graph ∧
      g.cleanup.result =
        (g.disconnectWhere fun c => c.id ∈ g.violations.map Violation.connection).result := by
  rw [cleanup]
  dsimp only
  split
  next hclean =>
    have hnone : g.connections.rows.filter
        (fun c => c.id ∈ g.violations.map Violation.connection) = [] := by
      rw [List.isEmpty_iff.1 hclean]
      exact List.filter_eq_nil_iff.2 fun c _ => by simp
    rw [disconnectWhere, hnone]
    exact ⟨rfl, rfl⟩
  next => exact ⟨rfl, rfl⟩

/-- Cleaning up leaves the connections that are not reported. -/
theorem skeleton_cleanup (g : Graph) :
    g.cleanup.graph.skeleton =
      (g.without fun c => c.id ∈ g.violations.map Violation.connection).skeleton := by
  rw [(cleanup_eq_disconnectWhere g).1]
  exact skeleton_disconnectWhere g _

end Graph

end FlowGraph
