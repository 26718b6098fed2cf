import FlowGraph.Graph.Basic
import FlowGraph.Proofs.Reachability
import FlowGraph.Table.Lemmas

/-!
# Well-formed graphs

The rules for connections, stated without the order in which they are checked.  A set of
connections is sound if each of them fits its two pins, no two of them enter the same
input and no cycle of nodes arises.  A link may join a sound set if it fits, its input is
free and no path leads from its target back to its source; by `sound_concat_iff` these
are exactly the links under which the set stays sound.
-/

namespace FlowGraph

/-- Two links end at the same input pin. -/
def Link.Meets (a b : Link) : Prop :=
  a.target = b.target ∧ a.targetPin = b.targetPin

@[simp]
theorem Link.enters_iff {a b : Link} : a.enters b.target b.targetPin = true ↔ a.Meets b := by
  simp [Link.enters, Link.Meets]

theorem Connection.mem_edges {connections : List Connection} {c : Connection}
    (h : c ∈ connections) : (c.source, c.target) ∈ Connection.edges connections :=
  List.mem_map_of_mem h

theorem Connection.edges_subset {few many : List Connection} (h : few ⊆ many) :
    Connection.edges few ⊆ Connection.edges many :=
  List.map_subset _ h

/-- What connections join, without their ids. -/
def Connection.links (connections : List Connection) : List Link :=
  connections.map Connection.toLink

theorem Connection.edges_eq (connections : List Connection) :
    Connection.edges connections = (Connection.links connections).map Link.edge := by
  rw [Connection.links, List.map_map]
  rfl

namespace Graph

variable {g : Graph} {few many connections : List Connection} {c : Connection} {l : Link}

/-- The input pin at which a link ends, if there is one. -/
def targetPin? (g : Graph) (l : Link) : Option Pin :=
  (g.node? l.target).bind (·.input? l.targetPin)

/-- Both ends of a link exist and carry the same. -/
def Fits (g : Graph) (l : Link) : Prop :=
  ∃ sourcePin ∈ g.sourcePin? l, ∃ targetPin ∈ g.targetPin? l, sourcePin.cls = targetPin.cls

/-- Connections that keep all rules together. -/
structure Sound (g : Graph) (connections : List Connection) : Prop where
  fits : ∀ c ∈ connections, g.Fits c.toLink
  fanIn : connections.Pairwise fun a b => ¬ a.toLink.Meets b.toLink
  acyclic : Reach.Acyclic (Connection.edges connections)

/-- The stored connections keep all rules. -/
def WellFormed (g : Graph) : Prop := g.Sound g.connections.rows

/-- A link that may join a set of connections. -/
structure Accepts (g : Graph) (connections : List Connection) (l : Link) : Prop where
  fits : g.Fits l
  free : ∀ c ∈ connections, ¬ c.toLink.Meets l
  noWayBack : ¬ Reach.Path (Connection.edges connections) l.target l.source

theorem sound_nil : g.Sound [] where
  fits _ h := by cases h
  fanIn := .nil
  acyclic := Reach.acyclic_nil

theorem Sound.sublist (h : few.Sublist many) (hsound : g.Sound many) : g.Sound few where
  fits c hc := hsound.fits c (h.subset hc)
  fanIn := hsound.fanIn.sublist h
  acyclic := hsound.acyclic.mono (Connection.edges_subset h.subset)

/-- Connections that fit in one graph and keep all rules there keep them in every graph
in which they fit. -/
theorem Sound.transfer {g' : Graph} (hsound : g.Sound connections)
    (hfits : ∀ c ∈ connections, g.Fits c.toLink → g'.Fits c.toLink) : g'.Sound connections where
  fits c hc := hfits c hc (hsound.fits c hc)
  fanIn := hsound.fanIn
  acyclic := hsound.acyclic

theorem Accepts.transfer {g' : Graph} (haccepts : g.Accepts connections l)
    (hfits : g.Fits l → g'.Fits l) : g'.Accepts connections l where
  fits := hfits haccepts.fits
  free := haccepts.free
  noWayBack := haccepts.noWayBack

/-- A link that may join many connections may join any few of them. -/
theorem Accepts.subset (h : few ⊆ many) (haccepts : g.Accepts many l) : g.Accepts few l where
  fits := haccepts.fits
  free c hc := haccepts.free c (h hc)
  noWayBack hback := haccepts.noWayBack (hback.mono (Connection.edges_subset h))

/-- The ids of the connections do not matter. -/
theorem Accepts.of_links (h : Connection.links few ⊆ Connection.links many)
    (haccepts : g.Accepts many l) : g.Accepts few l where
  fits := haccepts.fits
  free := by
    intro c hc
    obtain ⟨d, hd, hsame⟩ := List.mem_map.1 (h (List.mem_map_of_mem hc))
    rw [← hsame]
    exact haccepts.free d hd
  noWayBack := by
    intro hback
    apply haccepts.noWayBack
    rw [Connection.edges_eq] at hback ⊢
    exact hback.mono (List.map_subset _ h)

/-- Neither do their ids matter to whether they keep all rules, nor their order. -/
theorem Sound.of_perm (h : (Connection.links few).Perm (Connection.links many))
    (hsound : g.Sound many) : g.Sound few where
  fits := by
    intro c hc
    obtain ⟨d, hd, hsame⟩ := List.mem_map.1 (h.subset (List.mem_map_of_mem hc))
    rw [← hsame]
    exact hsound.fits d hd
  fanIn := by
    have hlinks : (Connection.links few).Pairwise fun a b => ¬ a.Meets b := by
      have hsymm : ∀ {a b : Link}, ¬ a.Meets b → ¬ b.Meets a :=
        fun hapart hmeets => hapart ⟨hmeets.1.symm, hmeets.2.symm⟩
      exact (h.pairwise_iff hsymm).2 (List.pairwise_map.2 hsound.fanIn)
    exact List.pairwise_map.1 hlinks
  acyclic := by
    apply hsound.acyclic.mono
    rw [Connection.edges_eq, Connection.edges_eq]
    exact List.map_subset _ h.subset

theorem accepts_congr (h : few ⊆ many) (h' : many ⊆ few) : g.Accepts few l ↔ g.Accepts many l :=
  ⟨.subset h', .subset h⟩

/-- The links under which a set stays sound are those that it accepts. -/
theorem sound_concat_iff :
    g.Sound (connections ++ [c]) ↔ g.Sound connections ∧ g.Accepts connections c.toLink := by
  have hacyclic : Reach.Acyclic (Connection.edges (connections ++ [c])) ↔
      Reach.Acyclic (Connection.edges connections) ∧
        ¬ Reach.Path (Connection.edges connections) c.target c.source := by
    rw [Connection.edges, List.map_append]
    exact Reach.acyclic_concat_iff
  constructor
  · intro h
    obtain ⟨hfanIn, -, hfree⟩ := List.pairwise_append.1 h.fanIn
    have hlast : c ∈ connections ++ [c] := List.mem_append_right _ (List.mem_singleton_self c)
    constructor
    · exact h.sublist (List.sublist_append_left _ _)
    · constructor
      · exact h.fits c hlast
      · intro a ha
        exact hfree a ha c (List.mem_singleton_self c)
      · exact (hacyclic.1 h.acyclic).2
  · rintro ⟨hsound, haccepts⟩
    constructor
    · intro a ha
      cases List.mem_append.1 ha with
      | inl hold => exact hsound.fits a hold
      | inr hnew =>
        rw [List.mem_singleton.1 hnew]
        exact haccepts.fits
    · apply List.pairwise_append.2
      refine ⟨hsound.fanIn, List.pairwise_singleton _ _, ?_⟩
      intro a ha b hb
      rw [List.mem_singleton.1 hb]
      exact haccepts.free a ha
    · exact hacyclic.2 ⟨hsound.acyclic, haccepts.noWayBack⟩

/-! ## What a well-formed graph grants to its connections -/

theorem hasNode_of_sourcePin? {pin : Pin} (h : pin ∈ g.sourcePin? l) :
    g.hasNode l.source = true := by
  obtain ⟨n, hn, -⟩ := Option.bind_eq_some_iff.1 h
  rw [hasNode, hn, Option.isSome_some]

theorem hasNode_of_targetPin? {pin : Pin} (h : pin ∈ g.targetPin? l) :
    g.hasNode l.target = true := by
  obtain ⟨n, hn, -⟩ := Option.bind_eq_some_iff.1 h
  rw [hasNode, hn, Option.isSome_some]

theorem hasNode_of_isPure {id : NodeId} (h : g.isPure id = true) : g.hasNode id = true := by
  obtain ⟨n, hn, -⟩ := (Option.any_eq_true _ _).1 h
  rw [hasNode, hn, Option.isSome_some]

theorem Fits.hasNode_source (h : g.Fits l) : g.hasNode l.source = true := by
  obtain ⟨_, hpin, -⟩ := h
  exact hasNode_of_sourcePin? hpin

theorem Fits.hasNode_target (h : g.Fits l) : g.hasNode l.target = true := by
  obtain ⟨_, -, _, hpin, -⟩ := h
  exact hasNode_of_targetPin? hpin

theorem WellFormed.hasNode_target (hwf : g.WellFormed) (hc : c ∈ g.connections.rows) :
    g.hasNode c.target = true :=
  (hwf.fits c hc).hasNode_target

theorem WellFormed.hasNode_of_edge (hwf : g.WellFormed) {a b : NodeId}
    (hedge : (a, b) ∈ Connection.edges g.connections.rows) : g.hasNode b = true := by
  obtain ⟨c, hc, heq⟩ := List.mem_map.1 hedge
  cases heq
  exact hwf.hasNode_target hc

theorem mem_nodeIds_of_hasNode {id : NodeId} (h : g.hasNode id = true) : id ∈ g.nodeIds := by
  obtain ⟨n, hn⟩ := Option.isSome_iff_exists.1 h
  rw [← Table.key_of_find? hn]
  exact List.mem_map_of_mem (Table.mem_of_find? hn)

theorem hasNode_of_mem_nodeIds {id : NodeId} (h : id ∈ g.nodeIds) : g.hasNode id = true := by
  obtain ⟨n, hn, rfl⟩ := List.mem_map.1 h
  rw [hasNode, node?, Table.find?_key_iff.2 hn, Option.isSome_some]

theorem length_nodeIds (g : Graph) : g.nodeIds.length = g.nodes.size :=
  List.length_map _

theorem sourcePin?_congr {g' : Graph}
    (h : (g'.node? l.source).map Node.outputs = (g.node? l.source).map Node.outputs) :
    g'.sourcePin? l = g.sourcePin? l := by
  have hread : ∀ g : Graph,
      g.sourcePin? l = ((g.node? l.source).map Node.outputs).bind (·[l.sourcePin]?) := by
    intro g
    rw [Option.bind_map]
    rfl
  rw [hread, h, ← hread]

theorem targetPin?_congr {g' : Graph}
    (h : (g'.node? l.target).map Node.inputs = (g.node? l.target).map Node.inputs) :
    g'.targetPin? l = g.targetPin? l := by
  have hread : ∀ g : Graph,
      g.targetPin? l = ((g.node? l.target).map Node.inputs).bind (·[l.targetPin]?) := by
    intro g
    rw [Option.bind_map]
    rfl
  rw [hread, h, ← hread]

/-- Every path from a live node stays among the live nodes. -/
theorem WellFormed.mem_nodeIds_of_path (hwf : g.WellFormed) {a b : NodeId}
    (hlive : g.hasNode a = true)
    (hpath : Reach.Path (Connection.edges g.connections.rows) a b) : b ∈ g.nodeIds := by
  cases hpath with
  | refl => exact mem_nodeIds_of_hasNode hlive
  | tail _ hedge => exact mem_nodeIds_of_hasNode (hwf.hasNode_of_edge hedge)

/-- So it goes through each of them once at most. -/
theorem WellFormed.within (hwf : g.WellFormed) {id : NodeId} (hlive : g.hasNode id = true) :
    Reach.Within (Connection.edges g.connections.rows) g.nodes.size id := by
  rw [← length_nodeIds]
  exact hwf.acyclic.within fun _ hpath => hwf.mem_nodeIds_of_path hlive hpath

theorem WellFormed.target_ne_source (hwf : g.WellFormed) (hc : c ∈ g.connections.rows) :
    c.target ≠ c.source := by
  intro heq
  have hedge := Connection.mem_edges hc
  rw [heq] at hedge
  exact hwf.acyclic c.source (Relation.TransGen.single hedge)

end Graph

end FlowGraph
