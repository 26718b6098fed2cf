import FlowGraph.Proofs.Replay

/-!
# The order in which a graph is built

Admission looks at the stored connections as a set of links: their ids and their order play no
part, and what is let in next to many connections is let in next to a few of them.  A list of
links that keeps all rules is therefore let in whole, whichever link is offered first.
-/

namespace FlowGraph

namespace Graph

variable {few many blank : Graph} {order : List Connection} {l : Link}

/-- The links of the stored connections, in insertion order. -/
def links (g : Graph) : List Link := Connection.links g.connections.rows

/-- On the same nodes, fewer connections let in more links. -/
theorem check_antitone (hnodes : few.skeleton.nodes = many.skeleton.nodes)
    (hlinks : few.links ⊆ many.links) (hcheck : many.check l = .ok ()) :
    few.check l = .ok () := by
  have haccepts : many.Accepts few.connections.rows l := (check_eq_ok_iff.1 hcheck).of_links hlinks
  exact check_eq_ok_iff.2 (haccepts.transfer (fits_iff_of_nodes hnodes l).2)

/-- Requests that keep all rules together are let in one after the other, in their order. -/
theorem offerAll_of_sound (hempty : blank.connections = ∅) (hsound : blank.Sound order)
    (hdistinct : (order.map Connection.id).Nodup) :
    (blank.offerAll order).2 = order ∧ (blank.offerAll order).1.connections.rows = order := by
  have hkept : blank.keptOf order = order := keptOf_eq_self (violationsOf_eq_nil_iff.2 hsound)
  obtain ⟨-, hrows, haccepted⟩ := offerAll_spec (fun _ => Iff.rfl) hempty hdistinct
  rw [hkept] at hrows haccepted
  exact ⟨haccepted, hrows⟩

/-- Fewer connections on the same nodes let in whatever more of them let in.  So requests that
keep all rules together are all let in, in whatever order and under whatever new ids they are
made, and the links that are stored in the end are the same. -/
theorem build_order_makes_no_difference :
    (∀ few many : Graph, few.skeleton.nodes = many.skeleton.nodes → few.links ⊆ many.links →
      ∀ l, many.check l = .ok () → few.check l = .ok ()) ∧
      ∀ (blank : Graph) (requests : List Connection), blank.connections = ∅ →
        blank.Sound requests →
        ∀ order : List Connection, (Connection.links order).Perm (Connection.links requests) →
          (order.map Connection.id).Nodup →
          (blank.offerAll order).2 = order ∧
            (blank.offerAll order).1.links.Perm (Connection.links requests) := by
  constructor
  · intro few many hnodes hlinks l hcheck
    exact check_antitone hnodes hlinks hcheck
  · intro blank requests hempty hsound order hperm hdistinct
    obtain ⟨haccepted, hrows⟩ := offerAll_of_sound hempty (hsound.of_perm hperm) hdistinct
    refine ⟨haccepted, ?_⟩
    rw [links, hrows]
    exact hperm

/-- The connections of a loop with a choice in its body, offered from the last to the first; and
a link that is let in by the graph that has them already is let in without them. -/
theorem build_order_makes_no_difference_counting :
    ({ counting with connections := ∅ }.offerAll counting.connections.rows.reverse).2 =
        counting.connections.rows.reverse ∧
      ({ counting with connections := ∅ }.offerAll
        counting.connections.rows.reverse).1.links.Perm counting.links ∧
      { counting with connections := ∅ }.check ⟨⟨1⟩, 2, ⟨2⟩, 1⟩ = .ok () := by
  obtain ⟨hantitone, hbuild⟩ := build_order_makes_no_difference
  have hwf : counting.WellFormed := by decide
  have hblank : { counting with connections := ∅ }.Sound counting.connections.rows :=
    hwf.transfer fun _ _ hfits => hfits
  obtain ⟨haccepted, hlinks⟩ := hbuild { counting with connections := ∅ } counting.connections.rows
    rfl hblank counting.connections.rows.reverse ((List.reverse_perm _).map _) (by decide)
  refine ⟨haccepted, hlinks, ?_⟩
  exact hantitone { counting with connections := ∅ } counting rfl (List.nil_subset _) _ rfl

end Graph

end FlowGraph
