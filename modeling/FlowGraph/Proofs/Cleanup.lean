import FlowGraph.Proofs.Memory
import FlowGraph.Proofs.Replay
import FlowGraph.Proofs.Vacancy

/-!
# Cleaning up

A cleanup takes out the connections that are reported.  The verdict on a connection depends
on those before it, but the unreported ones are sound together, so that without the others
nothing is left to report and a second cleanup finds nothing to do.
-/

namespace FlowGraph

namespace Graph

variable {g : Graph}

theorem fits_cleanup_iff (g : Graph) (l : Link) : g.cleanup.graph.Fits l ↔ g.Fits l :=
  fits_iff_of_skeleton (skeleton_cleanup g) l

theorem wellFormed_cleanup (g : Graph) : g.cleanup.graph.WellFormed := by
  rw [WellFormed, rows_cleanup]
  exact (sound_unreported g).transfer fun c _ => (fits_cleanup_iff g c.toLink).2

/-- Where nothing is reported there is nothing to do. -/
theorem WellFormed.cleanup_eq (hwf : g.WellFormed) :
    g.cleanup.graph = g ∧ g.cleanup.result = 0 := by
  rw [cleanup, violations_eq_nil_iff.2 hwf]
  exact ⟨rfl, rfl⟩

/-- Every violation belongs to one stored connection, and no two to the same. -/
theorem perm_reported (g : Graph) :
    (g.connections.keys.filter fun id => id ∈ g.reported).Perm g.reported := by
  apply (List.perm_ext_iff_of_nodup _ _).2
  · intro id
    rw [List.mem_filter, decide_eq_true_iff]
    exact and_iff_right_of_imp fun h => (reported_sublist g).subset h
  · exact g.connections.nodup_keys.filter _
  · exact g.connections.nodup_keys.sublist (reported_sublist g)

theorem countP_reported (g : Graph) :
    g.connections.rows.countP (fun c => c.id ∈ g.reported) = g.violations.length :=
  calc
    g.connections.rows.countP (fun c => c.id ∈ g.reported)
      = g.connections.keys.countP (fun id => id ∈ g.reported) := by
        rw [Table.keys, List.countP_map]
        rfl
    _ = (g.connections.keys.filter fun id => id ∈ g.reported).length :=
        List.countP_eq_length_filter
    _ = g.reported.length := (perm_reported g).length_eq
    _ = g.violations.length := List.length_map _

theorem result_cleanup (g : Graph) : g.cleanup.result = g.violations.length := by
  rw [← countP_reported, (cleanup_eq_disconnectWhere g).2]
  exact result_disconnectWhere g _

theorem leaves_cleanup (g : Graph) :
    g.Leaves (fun c => c.id ∈ g.reported) (fun _ => false) g.cleanup.graph := by
  rw [(cleanup_eq_disconnectWhere g).1]
  exact leaves_disconnectWhere g _

/-- Every node stays, relieved. -/
theorem node?_cleanup (g : Graph) (id : NodeId) :
    (g.node? id = none ∧ g.cleanup.graph.node? id = none) ∨
      ∃ n n', g.node? id = some n ∧ g.cleanup.graph.node? id = some n' ∧
        g.Relieved g.cleanup.graph n n' := by
  cases hn' : g.cleanup.graph.node? id with
  | none =>
    have hlive : g.cleanup.graph.hasNode id = g.hasNode id :=
      hasNode_of_skeleton (skeleton_cleanup g) id
    rw [hasNode, hn', hasNode, Option.isSome_none] at hlive
    exact .inl ⟨Option.not_isSome_iff_eq_none.1 (ne_true_of_eq_false hlive.symm), rfl⟩
  | some n' =>
    obtain ⟨n, hn, hrelieved⟩ := (leaves_cleanup g).exists_node? hn'
    exact .inr ⟨n, n', hn, rfl, hrelieved⟩

/-- A cleanup changes no outputs. -/
theorem sourceValue?_cleanup (g : Graph) (l : Link) :
    g.cleanup.graph.sourceValue? l = g.sourceValue? l := by
  rw [sourceValue?_eq, sourceValue?_eq]
  rcases node?_cleanup g l.source with ⟨hn, hn'⟩ | ⟨n, n', hn, hn', hrelieved⟩
  · rw [hn, hn']
  · rw [hn, hn', hrelieved.same]
    rfl

/-- The input of a connection that stays keeps what it holds. -/
theorem targetValue?_cleanup {c : Connection} (hc : c ∈ g.unreported) :
    g.cleanup.graph.targetValue? c.toLink = g.targetValue? c.toLink := by
  rw [targetValue?, memory?, targetValue?, memory?]
  rcases node?_cleanup g c.target with ⟨hn, hn'⟩ | ⟨n, n', hn, hn', hrelieved⟩
  · rw [hn, hn']
  · rw [hn, hn']
    apply hrelieved.kept
    intro pin hvacated
    apply hvacated.after
    rw [Entered, rows_cleanup]
    exact ⟨c, hc, (Table.key_of_find? hn).symm, rfl⟩

/-- Whatever connections were stored unchecked, a cleanup takes out exactly the reported
ones and answers how many these are.  Nothing is reported afterwards, and a second cleanup
changes nothing.  At the nodes, the data inputs that lose their last connection hold their
defaults again, and nothing else changes. -/
theorem cleanup_exact (g : Graph) :
    g.cleanup.result = g.violations.length ∧
      g.cleanup.graph.connections.rows = g.unreported ∧
      g.cleanup.graph.violations = [] ∧
      g.cleanup.graph.cleanup.result = 0 ∧
      g.cleanup.graph.cleanup.graph = g.cleanup.graph ∧
      g.Leaves (fun c => c.id ∈ g.reported) (fun _ => false) g.cleanup.graph := by
  have hwf := wellFormed_cleanup g
  obtain ⟨hagain, hnothing⟩ := hwf.cleanup_eq
  exact ⟨result_cleanup g, rows_cleanup g, violations_eq_nil_iff.2 hwf, hnothing, hagain,
    leaves_cleanup g⟩

example :
    tangled.cleanup.result = 3 ∧
      tangled.cleanup.graph.connections.keys = [⟨0⟩, ⟨1⟩, ⟨5⟩] := by decide

end Graph

end FlowGraph
