import FlowGraph.Graph.DataOrder
import FlowGraph.Proofs.PathSearch
import FlowGraph.Proofs.WellFormed
import Mathlib.Data.List.Nodup
import Mathlib.Data.List.Perm.Subperm

/-!
# The data order is a topological order

While nodes are taken, the number kept for a node is the number of edges into it from
nodes not yet taken, and the nodes in the queue or taken are exactly those for which it is
zero.  So every node is taken after all from which an edge leads into it, none is taken
twice, and what is left out has a source that is left out too.  If no cycle leads to a node,
then the edges above that node have no cycle at all, and the sorting takes everything there
from the sources on.  Without cycles nothing is left out.
-/

namespace FlowGraph

open Relation

namespace Reach

variable {edges : List (NodeId × NodeId)}

theorem Acyclic.swap (h : Acyclic edges) : Acyclic (edges.map Prod.swap) := by
  intro node hcycle
  apply h node
  apply transGen_swap.1
  apply hcycle.lift id
  intro a b hedge
  obtain ⟨⟨c, d⟩, he, heq⟩ := List.mem_map.1 hedge
  cases heq
  exact he

theorem acc_of_within {depth : Nat} {b : NodeId} (h : Within (edges.map Prod.swap) depth b) :
    Acc (fun a b => (a, b) ∈ edges) b := by
  induction depth generalizing b with
  | zero => cases h
  | succ depth ih =>
    constructor
    intro a hedge
    exact ih (h a (List.mem_map.2 ⟨(a, b), hedge, rfl⟩))

/-- Without cycles one can argue from the sources of edges to their targets. -/
theorem Acyclic.wellFounded (h : Acyclic edges) : WellFounded fun a b => (a, b) ∈ edges := by
  constructor
  intro b
  have hnodes : ∀ a, Path (edges.map Prod.swap) b a → a ∈ b :: edges.map Prod.fst := by
    intro a hpath
    cases hpath with
    | refl => exact List.mem_cons_self
    | tail _ hedge =>
      obtain ⟨⟨c, d⟩, he, heq⟩ := List.mem_map.1 hedge
      cases heq
      exact List.mem_cons_of_mem _ (List.mem_map_of_mem he)
  exact acc_of_within (h.swap.within hnodes)

end Reach

/-- A list of nodes, newest first, in which each node comes after all that it needs. -/
def InOrder (needs : NodeId → NodeId → Prop) : List NodeId → Prop
  | [] => True
  | b :: earlier => (∀ a, needs a b → a ∈ earlier) ∧ InOrder needs earlier

theorem InOrder.of_append {needs : NodeId → NodeId → Prop} {later earlier : List NodeId}
    (h : InOrder needs (later ++ earlier)) : InOrder needs earlier := by
  induction later with
  | nil => exact h
  | cons b later ih => exact ih h.2

/-- Read from the oldest on, what a node needs stands before it. -/
theorem InOrder.mem_before {needs : NodeId → NodeId → Prop} {listed before after : List NodeId}
    {a b : NodeId} (h : InOrder needs listed) (hsplit : listed.reverse = before ++ b :: after)
    (hneeds : needs a b) : a ∈ before := by
  have hlisted : listed = after.reverse ++ b :: before.reverse := by
    rw [← List.reverse_reverse listed, hsplit]
    simp
  rw [hlisted] at h
  exact List.mem_reverse.1 (h.of_append.1 a hneeds)

/-- A cycle leads to the node; the nodes of the cycle count among them. -/
def BehindCycle (edge : NodeId → NodeId → Prop) (id : NodeId) : Prop :=
  ∃ a, TransGen edge a a ∧ ReflTransGen edge a id

namespace DataOrder

variable {nodes : List NodeId} {edges : List (NodeId × NodeId)} {s : Sorting}
  {pending : List NodeId} {current target id : NodeId}

/-- The number of edges into a node from nodes that have not been taken. -/
def waits (edges : List (NodeId × NodeId)) (taken : List NodeId) (id : NodeId) : Nat :=
  edges.countP fun e => e.2 == id && decide (e.1 ∉ taken)

theorem waits_eq_zero_iff {taken : List NodeId} :
    waits edges taken id = 0 ↔ ∀ a, (a, id) ∈ edges → a ∈ taken := by
  rw [waits, List.countP_eq_zero]
  constructor
  · intro h a hedge
    simpa using h (a, id) hedge
  · rintro h ⟨a, b⟩ hedge
    simp only [Bool.and_eq_true, beq_iff_eq, decide_eq_true_eq, not_and, not_not]
    rintro rfl
    exact h a hedge

/-- Taking a node settles the edges that start at it. -/
theorem waits_cons {taken : List NodeId} (hnew : current ∉ taken) (id : NodeId) :
    waits edges (current :: taken) id + (Reach.successors edges current).count id =
      waits edges taken id := by
  induction edges with
  | nil => rfl
  | cons e edges ih =>
    obtain ⟨a, b⟩ := e
    simp only [waits, Reach.successors] at ih ⊢
    by_cases ha : a = current
    · subst ha
      by_cases hb : b = id
      · simp [hb, hnew] at ih ⊢
        omega
      · simpa [hb] using ih
    · by_cases hb : b = id
      · by_cases htaken : a ∈ taken <;> simp [ha, hb, htaken] at ih ⊢ <;> omega
      · simpa [ha, hb] using ih

theorem lookup_map_pair {f : NodeId → Nat} (h : id ∈ nodes) :
    (nodes.map fun id => (id, f id)).lookup id = some (f id) := by
  induction nodes with
  | nil => cases h
  | cons head nodes ih =>
    rw [List.map_cons, List.lookup_cons]
    cases heq : id == head with
    | true => rw [beq_iff_eq.1 heq]
    | false => exact ih ((List.mem_cons.1 h).resolve_left (ne_of_beq_false heq))

/-- The state of the sorting while the edges into some nodes, each as often as it is
listed, are still to be released. -/
structure Balanced (nodes : List NodeId) (edges : List (NodeId × NodeId)) (s : Sorting)
    (pending : List NodeId) : Prop where
  waiting : s.waiting = nodes.map fun id => (id, waits edges s.taken id + pending.count id)
  free : ∀ id, id ∈ s.queue ++ s.taken ↔
    id ∈ nodes ∧ waits edges s.taken id + pending.count id = 0
  distinct : (s.queue ++ s.taken).Nodup
  inOrder : InOrder (fun a b => (a, b) ∈ edges) s.taken

theorem balanced_start (hnodes : nodes.Nodup) (edges : List (NodeId × NodeId)) :
    Balanced nodes edges (.start nodes edges) [] where
  waiting := by simp [Sorting.start, waits]
  free id := by
    rw [Sorting.start, List.append_nil, List.mem_filter, List.count_nil, Nat.add_zero,
      waits_eq_zero_iff]
    apply and_congr_right
    intro _
    constructor
    · intro hfree a hedge
      simp only [Bool.not_eq_true', List.any_eq_false, beq_iff_eq] at hfree
      exact absurd rfl (hfree (a, id) hedge)
    · intro hnone
      simp only [Bool.not_eq_true', List.any_eq_false, beq_iff_eq]
      rintro ⟨a, b⟩ hedge rfl
      cases hnone a hedge
  distinct := by
    rw [Sorting.start, List.append_nil]
    exact hnodes.filter _
  inOrder := trivial

theorem Balanced.release (h : Balanced nodes edges s (target :: pending))
    (htarget : target ∈ nodes) : Balanced nodes edges (s.release target) pending := by
  set waiting := nodes.map fun id => (id, waits edges s.taken id + pending.count id)
    with hwaitingDef
  have hwaiting : (s.waiting.map fun e => if e.1 = target then (e.1, e.2 - 1) else e) =
      waiting := by
    rw [h.waiting, List.map_map]
    apply List.map_congr_left
    intro id _
    by_cases hid : id = target
    · simp [hid]
    · simp [hid, List.count_cons_of_ne (Ne.symm hid)]
  have hbusy : target ∉ s.queue ++ s.taken := by
    rw [h.free, List.count_cons_self]
    omega
  have hother : ∀ id, id ≠ target → (id ∈ s.queue ++ s.taken ↔
      id ∈ nodes ∧ waits edges s.taken id + pending.count id = 0) := by
    intro id hid
    rw [h.free, List.count_cons_of_ne (Ne.symm hid)]
  have hrelease : s.release target =
      if waiting.lookup target = some 0 then
        { s with waiting := waiting, queue := s.queue ++ [target] }
      else { s with waiting := waiting } := by
    rw [← hwaiting]
    rfl
  rw [hrelease, hwaitingDef, lookup_map_pair htarget]
  simp only [Option.some.injEq]
  split
  next hfree =>
    refine ⟨rfl, ?_, ?_, h.inOrder⟩
    · intro id
      by_cases hid : id = target
      · simp [hid, htarget, hfree]
      · rw [← hother id hid]
        simp [hid]
    · rw [List.append_assoc, List.singleton_append, List.perm_middle.nodup_iff]
      exact List.nodup_cons.2 ⟨hbusy, h.distinct⟩
  next hwait =>
    refine ⟨rfl, ?_, h.distinct, h.inOrder⟩
    intro id
    by_cases hid : id = target
    · rw [hid]
      exact iff_of_false hbusy fun hfree => hwait hfree.2
    · exact hother id hid

theorem taken_foldl_release (s : Sorting) (pending : List NodeId) :
    (pending.foldl Sorting.release s).taken = s.taken := by
  induction pending generalizing s with
  | nil => rfl
  | cons target pending ih =>
    rw [List.foldl_cons, ih, Sorting.release]
    split <;> rfl

theorem Balanced.releaseAll (h : Balanced nodes edges s pending)
    (hpending : ∀ target ∈ pending, target ∈ nodes) :
    Balanced nodes edges (pending.foldl Sorting.release s) [] := by
  induction pending generalizing s with
  | nil => exact h
  | cons target pending ih =>
    exact ih (h.release (hpending target List.mem_cons_self))
      fun other hother => hpending other (List.mem_cons_of_mem _ hother)

/-- The first node of the queue is taken. -/
theorem Balanced.take {rest : List NodeId} (h : Balanced nodes edges s [])
    (hqueue : s.queue = current :: rest) :
    Balanced nodes edges { s with queue := rest, taken := current :: s.taken }
      (Reach.successors edges current) := by
  have hdistinct := h.distinct
  rw [hqueue, List.cons_append, List.nodup_cons, List.mem_append, not_or] at hdistinct
  obtain ⟨⟨-, hnew⟩, -⟩ := hdistinct
  have hmove : (rest ++ current :: s.taken).Perm (s.queue ++ s.taken) := by
    rw [hqueue]
    exact List.perm_middle
  refine ⟨?_, ?_, ?_, ?_, h.inOrder⟩
  · simp only [waits_cons hnew]
    exact h.waiting
  · intro id
    rw [waits_cons hnew, hmove.mem_iff]
    exact h.free id
  · exact hmove.nodup_iff.2 h.distinct
  · have hfree := (h.free current).1 (by simp [hqueue])
    exact waits_eq_zero_iff.1 hfree.2

/-- Every step takes a node, and no node is taken twice; so the queue runs empty. -/
theorem Balanced.takeFree {steps : Nat} (h : Balanced nodes edges s [])
    (hedges : ∀ e ∈ edges, e.2 ∈ nodes) (hsteps : nodes.length ≤ steps + s.taken.length) :
    Balanced nodes edges (Sorting.takeFree edges steps s) [] ∧
      (Sorting.takeFree edges steps s).queue = [] := by
  induction steps generalizing s with
  | zero =>
    refine ⟨h, ?_⟩
    have hlength : (s.queue ++ s.taken).length ≤ nodes.length :=
      (List.subperm_of_subset h.distinct fun id hid => ((h.free id).1 hid).1).length_le
    rw [List.length_append] at hlength
    exact List.length_eq_zero_iff.1 (show s.queue.length = 0 by omega)
  | succ steps ih =>
    rw [Sorting.takeFree]
    cases hqueue : s.queue with
    | nil => exact ⟨h, hqueue⟩
    | cons current rest =>
      have hsuccessors : ∀ target ∈ Reach.successors edges current, target ∈ nodes :=
        fun target htarget => hedges _ (Reach.mem_successors.1 htarget)
      have hreleased := (h.take hqueue).releaseAll hsuccessors
      apply ih hreleased
      rw [taken_foldl_release, List.length_cons]
      omega

/-- The final state of the sorting. -/
theorem balanced_sort (hnodes : nodes.Nodup) (hedges : ∀ e ∈ edges, e.2 ∈ nodes) :
    ∃ s, sort nodes edges = s.taken.reverse ∧ s.queue = [] ∧ Balanced nodes edges s [] := by
  obtain ⟨hbalanced, hqueue⟩ := (balanced_start hnodes edges).takeFree hedges (Nat.le_add_right _ _)
  exact ⟨_, rfl, hqueue, hbalanced⟩

theorem nodup_sort (hnodes : nodes.Nodup) (hedges : ∀ e ∈ edges, e.2 ∈ nodes) :
    (sort nodes edges).Nodup := by
  obtain ⟨s, hsort, hqueue, hbalanced⟩ := balanced_sort hnodes hedges
  have hdistinct := hbalanced.distinct
  rw [hqueue, List.nil_append] at hdistinct
  rw [hsort]
  exact (List.reverse_perm s.taken).nodup_iff.2 hdistinct

/-- A node is in the order exactly if all from which an edge leads into it are. -/
theorem mem_sort_iff (hnodes : nodes.Nodup) (hedges : ∀ e ∈ edges, e.2 ∈ nodes) :
    id ∈ sort nodes edges ↔ id ∈ nodes ∧ ∀ a, (a, id) ∈ edges → a ∈ sort nodes edges := by
  obtain ⟨s, hsort, hqueue, hbalanced⟩ := balanced_sort hnodes hedges
  have hfree := hbalanced.free id
  rw [hqueue, List.nil_append, List.count_nil, Nat.add_zero, waits_eq_zero_iff] at hfree
  simpa [hsort] using hfree

/-- Every node stands after all from which an edge leads into it. -/
theorem mem_before_of_sort (hnodes : nodes.Nodup) (hedges : ∀ e ∈ edges, e.2 ∈ nodes)
    {before after : List NodeId} {a : NodeId} (hsplit : sort nodes edges = before ++ id :: after)
    (hedge : (a, id) ∈ edges) : a ∈ before := by
  obtain ⟨s, hsort, -, hbalanced⟩ := balanced_sort hnodes hedges
  rw [hsort] at hsplit
  exact hbalanced.inOrder.mem_before hsplit hedge

/-- The edges from whose target a path leads to the node. -/
def edgesAbove (edges : List (NodeId × NodeId)) (id : NodeId) : List (NodeId × NodeId) :=
  edges.filter fun e => Reach.Path edges e.2 id

theorem mem_edgesAbove_iff {e : NodeId × NodeId} :
    e ∈ edgesAbove edges id ↔ e ∈ edges ∧ Reach.Path edges e.2 id := by
  rw [edgesAbove, List.mem_filter, decide_eq_true_iff]

theorem acyclic_edgesAbove (h : ¬ BehindCycle (fun a b => (a, b) ∈ edges) id) :
    Reach.Acyclic (edgesAbove edges id) := by
  intro a hcycle
  apply h
  refine ⟨a, TransGen.mono (fun _ _ hedge => (mem_edgesAbove_iff.1 hedge).1) _ _ hcycle, ?_⟩
  obtain ⟨_, -, hlast⟩ := TransGen.tail'_iff.1 hcycle
  exact (mem_edgesAbove_iff.1 hlast).2

theorem mem_sort_of_not_behindCycle (hnodes : nodes.Nodup)
    (hedges : ∀ e ∈ edges, e.1 ∈ nodes ∧ e.2 ∈ nodes) (hid : id ∈ nodes)
    (h : ¬ BehindCycle (fun a b => (a, b) ∈ edges) id) : id ∈ sort nodes edges := by
  have habove : ∀ a, Reach.Path edges a id → a ∈ nodes → a ∈ sort nodes edges := by
    intro a
    induction a using (acyclic_edgesAbove h).wellFounded.induction with
    | _ b ih =>
      intro hpath hb
      apply (mem_sort_iff hnodes fun e he => (hedges e he).2).2
      refine ⟨hb, ?_⟩
      intro a hedge
      exact ih a (mem_edgesAbove_iff.2 ⟨hedge, hpath⟩) (hpath.head hedge) (hedges _ hedge).1
  exact habove id .refl hid

/-- Without cycles no node is left out. -/
theorem mem_sort_of_acyclic (hnodes : nodes.Nodup) (hedges : ∀ e ∈ edges, e.1 ∈ nodes ∧ e.2 ∈ nodes)
    (hacyclic : Reach.Acyclic edges) (hid : id ∈ nodes) : id ∈ sort nodes edges :=
  mem_sort_of_not_behindCycle hnodes hedges hid fun ⟨a, hcycle, _⟩ => hacyclic a hcycle

end DataOrder

namespace Graph

variable {g : Graph} {a b id : NodeId}

/-- The known order, if there is one, is the data order of the present structure. -/
def OrderCurrent (g : Graph) : Prop := ∀ order ∈ g.knownOrder, order = g.dataOrder

theorem OrderCurrent.result_knowOrder (h : g.OrderCurrent) : g.knowOrder.result = g.dataOrder := by
  rw [knowOrder]
  split
  next order hknown => exact h order hknown
  next => rfl

/-- A data connection leads from one node to another. -/
def Feeds (g : Graph) (a b : NodeId) : Prop :=
  ∃ c ∈ g.connections.rows, g.carriesData c.toLink = true ∧ c.source = a ∧ c.target = b

theorem mem_dataInputs_iff {c : Connection} :
    c ∈ g.dataInputs id ↔
      c ∈ g.connections.rows ∧ c.target = id ∧ g.carriesData c.toLink = true := by
  rw [dataInputs, List.mem_filter, Bool.and_eq_true, beq_iff_eq]

theorem feeds_iff : g.Feeds a b ↔ ∃ c ∈ g.dataInputs b, c.source = a := by
  simp only [mem_dataInputs_iff]
  constructor
  · rintro ⟨c, hstored, hdata, hsource, htarget⟩
    exact ⟨c, ⟨hstored, htarget, hdata⟩, hsource⟩
  · rintro ⟨c, ⟨hstored, htarget, hdata⟩, hsource⟩
    exact ⟨c, hstored, hdata, hsource, htarget⟩

theorem Feeds.feedsData (h : g.Feeds a b) : g.feedsData a = true := by
  obtain ⟨c, hstored, hdata, rfl, -⟩ := h
  exact List.any_eq_true.2 ⟨c, hstored, by rw [hdata, beq_self_eq_true, Bool.and_self]⟩

theorem mem_dataEdges_iff : (a, b) ∈ g.dataEdges ↔ g.hasNode b = true ∧ g.Feeds a b := by
  rw [dataEdges, Connection.edges, List.mem_map]
  constructor
  · rintro ⟨c, hc, heq⟩
    obtain ⟨hstored, hdata⟩ := List.mem_filter.1 hc
    obtain ⟨htarget, hcarries⟩ := Bool.and_eq_true_iff.1 hdata
    cases heq
    exact ⟨htarget, c, hstored, hcarries, rfl, rfl⟩
  · rintro ⟨hlive, c, hstored, hcarries, rfl, rfl⟩
    exact ⟨c, List.mem_filter.2 ⟨hstored, Bool.and_eq_true_iff.2 ⟨hlive, hcarries⟩⟩, rfl⟩

theorem Feeds.mem_edges (h : g.Feeds a b) : (a, b) ∈ Connection.edges g.connections.rows := by
  obtain ⟨c, hc, -, rfl, rfl⟩ := h
  exact Connection.mem_edges hc

theorem hasNode_of_carriesData {l : Link} (h : g.carriesData l = true) :
    g.hasNode l.source = true := by
  obtain ⟨pin, hpin, -⟩ := (Option.any_eq_true _ _).1 h
  exact hasNode_of_sourcePin? hpin

theorem Feeds.hasNode_source (h : g.Feeds a b) : g.hasNode a = true := by
  obtain ⟨c, -, hcarries, rfl, -⟩ := h
  exact hasNode_of_carriesData hcarries

theorem mem_nodeIds_of_mem_dataEdges {e : NodeId × NodeId} (h : e ∈ g.dataEdges) :
    e.1 ∈ g.nodeIds ∧ e.2 ∈ g.nodeIds := by
  obtain ⟨hlive, hfeeds⟩ := mem_dataEdges_iff.1 h
  exact ⟨mem_nodeIds_of_hasNode hfeeds.hasNode_source, mem_nodeIds_of_hasNode hlive⟩

theorem nodup_dataOrder (g : Graph) : g.dataOrder.Nodup :=
  DataOrder.nodup_sort g.nodes.nodup_keys fun _ he => (mem_nodeIds_of_mem_dataEdges he).2

theorem WellFormed.acyclic_dataEdges (hwf : g.WellFormed) : Reach.Acyclic g.dataEdges :=
  hwf.acyclic.mono (Connection.edges_subset List.filter_sublist.subset)

theorem WellFormed.feeds_wellFounded (hwf : g.WellFormed) : WellFounded g.Feeds :=
  Subrelation.wf Feeds.mem_edges hwf.acyclic.wellFounded

theorem mem_nodeIds_of_mem_dataOrder (h : id ∈ g.dataOrder) : id ∈ g.nodeIds :=
  ((DataOrder.mem_sort_iff g.nodes.nodup_keys
    fun _ he => (mem_nodeIds_of_mem_dataEdges he).2).1 h).1

/-- In a well-formed graph the data order goes through all nodes. -/
theorem WellFormed.perm_dataOrder (hwf : g.WellFormed) : g.dataOrder.Perm g.nodeIds := by
  apply (List.perm_ext_iff_of_nodup g.nodup_dataOrder g.nodes.nodup_keys).2
  intro id
  constructor
  · exact mem_nodeIds_of_mem_dataOrder
  · intro hid
    exact DataOrder.mem_sort_of_acyclic g.nodes.nodup_keys
      (fun _ he => mem_nodeIds_of_mem_dataEdges he) hwf.acyclic_dataEdges hid

/-- In the data order every node stands after all that feed it. -/
theorem mem_before_of_dataOrder {before after : List NodeId}
    (hsplit : g.dataOrder = before ++ b :: after) (hlive : g.hasNode b = true)
    (hfeeds : g.Feeds a b) : a ∈ before :=
  DataOrder.mem_before_of_sort g.nodes.nodup_keys
    (fun _ he => (mem_nodeIds_of_mem_dataEdges he).2) hsplit
    (mem_dataEdges_iff.2 ⟨hlive, hfeeds⟩)

end Graph

end FlowGraph
