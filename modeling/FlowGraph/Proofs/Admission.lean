import FlowGraph.Graph.Building
import FlowGraph.Proofs.Rules
import FlowGraph.Proofs.Skeleton

/-!
# Admission of links

The rules of admission let a link in exactly if the stored connections accept it.  A link
that is let in is stored behind all others, or in the place of the one whose id it takes, and a
link that is refused leaves the graph as it is.
-/

namespace FlowGraph

namespace Graph

variable {g : Graph} {l : Link} {id : ConnectionId}

/-- A link is let in exactly if the stored connections accept it.  That its ends are
different nodes need not be asked for: the empty path leads back. -/
theorem check_eq_ok_iff : g.check l = .ok () ↔ g.Accepts g.connections.rows l := by
  rw [check_eq_ok_iff_keeps]
  constructor
  · intro hkeeps
    obtain ⟨a, ha⟩ := Option.isSome_iff_exists.1 (hkeeps .outputPin)
    obtain ⟨b, hb⟩ := Option.isSome_iff_exists.1 (hkeeps .inputPin)
    exact ⟨⟨a, ha, b, hb, hkeeps .sameClass a ha b hb⟩, hkeeps .freeInput, hkeeps .noWayBack⟩
  · rintro ⟨hfits, hfree, hopen⟩ rule
    obtain ⟨a, ha, b, hb, hclass⟩ := hfits
    cases rule with
    | liveSource => exact hasNode_of_sourcePin? ha
    | liveTarget => exact hasNode_of_targetPin? hb
    | outputPin => exact Option.isSome_of_mem ha
    | inputPin => exact Option.isSome_of_mem hb
    | sameClass =>
      intro a' ha' b' hb'
      rw [Option.mem_unique ha' ha, Option.mem_unique hb' hb, hclass]
    | noLoop =>
      intro hloop
      apply hopen
      rw [hloop]
      exact Relation.ReflTransGen.refl
    | freeInput => exact hfree
    | noWayBack => exact hopen

/-! ## Connecting -/

theorem fits_restore_iff (g : Graph) (c : Connection) (l : Link) :
    (g.restore c).Fits l ↔ g.Fits l :=
  Iff.rfl

theorem rows_restore_of_unused (hunused : g.connection? id = none) :
    (g.restore { toLink := l, id := id }).connections.rows =
      g.connections.rows ++ [{ toLink := l, id := id }] :=
  Table.rows_put_of_find?_eq_none hunused

/-- A refused link leaves the graph as it is. -/
theorem connect_of_refused (id : ConnectionId) {refusal : Refusal}
    (h : g.check l = .error refusal) :
    (g.connect id l).graph = g ∧ (g.connect id l).result = .error refusal := by
  rw [connect, h]
  exact ⟨rfl, rfl⟩

/-- A link that is let in is stored, and besides only what nodes remember may change. -/
theorem connect_of_admitted (id : ConnectionId) (h : g.check l = .ok ()) :
    (g.connect id l).graph.skeleton = (g.restore { toLink := l, id := id }).skeleton ∧
      (g.connect id l).result = .ok id := by
  rw [connect, h]
  exact ⟨Run.skeleton_refreshConnection _ id, rfl⟩

/-- A graph stays well formed if a link is stored that it accepts, also in the place of
another. -/
theorem WellFormed.restore (hwf : g.WellFormed) (haccepts : g.Accepts g.connections.rows l)
    (id : ConnectionId) : (g.restore { toLink := l, id := id }).WellFormed := by
  have hothers : (g.connections.erase id).rows.Sublist g.connections.rows := List.filter_sublist
  have hadded : g.Sound ((g.connections.erase id).rows ++ [{ toLink := l, id := id }]) :=
    sound_concat_iff.2 ⟨hwf.sublist hothers, haccepts.subset hothers.subset⟩
  have hstored : g.Sound (g.connections.put { toLink := l, id := id }).rows :=
    hadded.of_perm ((Table.rows_put_perm g.connections { toLink := l, id := id }).map _)
  exact hstored.transfer fun c _ => (fits_restore_iff g _ c.toLink).2

/-- Whatever the answer, a well-formed graph stays well formed. -/
theorem WellFormed.connect (hwf : g.WellFormed) (id : ConnectionId) (l : Link) :
    (g.connect id l).graph.WellFormed := by
  cases hcheck : g.check l with
  | error refusal =>
    rw [(connect_of_refused id hcheck).1]
    exact hwf
  | ok =>
    have hstored := hwf.restore (check_eq_ok_iff.1 hcheck) id
    exact hstored.of_skeleton (connect_of_admitted id hcheck).1

end Graph

end FlowGraph
