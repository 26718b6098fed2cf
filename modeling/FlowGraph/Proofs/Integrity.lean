import FlowGraph.Proofs.Audit
import FlowGraph.Proofs.Operation
import FlowGraph.Table.Lemmas

/-!
# Integrity of a graph

The report of a graph is empty exactly if the graph is well formed.  In general the
unreported connections are sound by themselves, and each reported one breaks the rules,
as its report says, against the unreported ones that were inserted before it.
-/

namespace FlowGraph

namespace Graph

variable {g : Graph}

/-- The connections that are reported. -/
def reported (g : Graph) : List ConnectionId := g.violations.map Violation.connection

def isUnreported (g : Graph) (c : Connection) : Bool := c.id ∉ g.reported

/-- The stored connections that are not reported, in insertion order. -/
def unreported (g : Graph) : List Connection := g.connections.rows.filter g.isUnreported

theorem violations_eq_nil_iff : g.violations = [] ↔ g.WellFormed :=
  violationsOf_eq_nil_iff

instance (g : Graph) : Decidable g.WellFormed :=
  decidable_of_iff (g.violations = []) violations_eq_nil_iff

theorem reported_sublist (g : Graph) : g.reported.Sublist g.connections.keys :=
  violationsAmong_sublist g [] g.connections.rows

/-- What the audit keeps of the connections up to some place are the unreported ones. -/
theorem keptOf_eq_filter_isUnreported {before after : List Connection}
    (hrows : g.connections.rows = before ++ after) :
    g.keptOf before = before.filter g.isUnreported := by
  have hdistinct : (before.map Connection.id ++ after.map Connection.id).Nodup := by
    rw [← List.map_append, ← hrows]
    exact g.connections.nodup_keys
  obtain ⟨hbefore, -, hapart⟩ := List.nodup_append.1 hdistinct
  rw [keptOf_eq_filter hbefore]
  apply List.filter_congr
  intro c hc
  have hlater : c.id ∉ (g.violationsAmong ((g.keptAmong [] before).reverse ++ []) after).map
      Violation.connection := by
    intro hmem
    have hafter := (violationsAmong_sublist g _ after).subset hmem
    exact hapart c.id (List.mem_map_of_mem hc) c.id hafter rfl
  have hreported : c.id ∈ g.reported ↔
      c.id ∈ (g.violationsOf before).map Violation.connection := by
    rw [reported, violations, hrows, violationsAmong_append, List.map_append, List.mem_append]
    exact or_iff_left hlater
  rw [isUnreported, decide_eq_decide, hreported]

theorem unreported_eq_keptOf (g : Graph) : g.unreported = g.keptOf g.connections.rows :=
  (keptOf_eq_filter_isUnreported (List.append_nil _).symm).symm

theorem sound_unreported (g : Graph) : g.Sound g.unreported := by
  rw [unreported_eq_keptOf]
  exact sound_keptOf g _

/-- The report is empty exactly for well-formed graphs.  In general it goes through the
connections in insertion order and names each at most once, the unreported connections
are sound together, and every reported one breaks the rules in the way that is reported
when it joins the unreported ones inserted before it. -/
theorem violations_exact (g : Graph) :
    (g.violations = [] ↔ g.WellFormed) ∧
      g.reported.Sublist g.connections.keys ∧ g.reported.Nodup ∧
      g.Sound g.unreported ∧
      ∀ v ∈ g.violations, ∃ before c after, g.connections.rows = before ++ c :: after ∧
        g.Breaks (before.filter g.isUnreported) c v ∧
        ¬ g.Sound (before.filter g.isUnreported ++ [c]) := by
  have hsublist := reported_sublist g
  have hdistinct : g.reported.Nodup := g.connections.nodup_keys.sublist hsublist
  refine ⟨violations_eq_nil_iff, hsublist, hdistinct, sound_unreported g, ?_⟩
  intro v hv
  obtain ⟨before, c, after, hrows, hbreaks⟩ := exists_breaks_of_mem hv
  rw [keptOf_eq_filter_isUnreported hrows] at hbreaks
  use before, c, after, hrows, hbreaks
  intro hsound
  exact hbreaks.not_accepts (sound_concat_iff.1 hsound).2

theorem violations_exact_tangled :
    tangled.reported = [⟨2⟩, ⟨3⟩, ⟨4⟩] ∧ ¬ tangled.WellFormed ∧
      ∃ before c after, tangled.connections.rows = before ++ c :: after ∧
        tangled.Breaks (before.filter tangled.isUnreported) c (.closesCycle ⟨2⟩) ∧
        ¬ tangled.Sound (before.filter tangled.isUnreported ++ [c]) := by
  have hreported : Violation.closesCycle ⟨2⟩ ∈ tangled.violations := by decide
  obtain ⟨hclean, -, -, -, hbroken⟩ := violations_exact tangled
  refine ⟨by decide, ?_, hbroken _ hreported⟩
  intro hwf
  rw [hclean.2 hwf] at hreported
  cases hreported

end Graph

end FlowGraph
