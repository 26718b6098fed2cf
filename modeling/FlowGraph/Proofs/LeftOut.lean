import FlowGraph.Proofs.DataOrder
import FlowGraph.Proofs.Operation

/-!
# What the data order leaves out

The sorting leaves out the nodes on a cycle of edges and those behind one, and no others.
Everything that leads to a node it takes stands before that node, so a cycle and what comes
after it are never reached.

The numbers by which the sorting keeps account are exact on every list of edges, with edges
listed twice and edges from a node to itself among them: none is ever lowered below zero.
-/

namespace FlowGraph

open Relation

namespace DataOrder

variable {nodes : List NodeId} {edges : List (NodeId × NodeId)} {s : Sorting}
  {pending : List NodeId} {target id : NodeId}

/-! ## The account of edges -/

namespace Sorting

/-- The same as `release`, without an answer where the number is zero already. -/
def release? (s : Sorting) (target : NodeId) : Option Sorting :=
  if s.waiting.lookup target = some 0 then none else some (s.release target)

/-- The same as `takeFree`, without an answer where some number would be lowered below
zero. -/
def takeFree? (edges : List (NodeId × NodeId)) : Nat → Sorting → Option Sorting
  | 0, s => some s
  | steps + 1, s =>
    match s.queue with
    | [] => some s
    | current :: rest =>
      let next := { s with queue := rest, taken := current :: s.taken }
      ((Reach.successors edges current).foldlM release? next).bind (takeFree? edges steps)

end Sorting

/-- The same as `sort`, without an answer where some number would be lowered below zero. -/
def sort? (nodes : List NodeId) (edges : List (NodeId × NodeId)) : Option (List NodeId) :=
  (Sorting.takeFree? edges nodes.length (.start nodes edges)).map fun s => s.taken.reverse

/-- An edge that is still to be released is counted. -/
theorem Balanced.release?_eq (h : Balanced nodes edges s (target :: pending))
    (htarget : target ∈ nodes) : s.release? target = some (s.release target) := by
  have hcounted : s.waiting.lookup target ≠ some 0 := by
    rw [h.waiting, lookup_map_pair htarget, List.count_cons_self]
    simp
  rw [Sorting.release?, if_neg hcounted]

theorem Balanced.foldlM_release? (h : Balanced nodes edges s pending)
    (hpending : ∀ target ∈ pending, target ∈ nodes) :
    pending.foldlM Sorting.release? s = some (pending.foldl Sorting.release s) := by
  induction pending generalizing s with
  | nil => rfl
  | cons target pending ih =>
    have htarget := hpending target List.mem_cons_self
    rw [List.foldlM_cons, h.release?_eq htarget]
    exact ih (h.release htarget) fun other hother => hpending other (List.mem_cons_of_mem _ hother)

theorem Balanced.takeFree?_eq {steps : Nat} (h : Balanced nodes edges s [])
    (hedges : ∀ e ∈ edges, e.2 ∈ nodes) :
    Sorting.takeFree? edges steps s = some (Sorting.takeFree edges steps s) := by
  induction steps generalizing s with
  | zero => rfl
  | succ steps ih =>
    rw [Sorting.takeFree?, Sorting.takeFree]
    cases hqueue : s.queue with
    | nil => rfl
    | cons current rest =>
      have hsuccessors : ∀ target ∈ Reach.successors edges current, target ∈ nodes :=
        fun target htarget => hedges _ (Reach.mem_successors.1 htarget)
      have htaken := h.take hqueue
      simp only [htaken.foldlM_release? hsuccessors, Option.bind_some]
      exact ih (htaken.releaseAll hsuccessors)

theorem sort?_eq (hnodes : nodes.Nodup) (hedges : ∀ e ∈ edges, e.2 ∈ nodes) :
    sort? nodes edges = some (sort nodes edges) := by
  rw [sort?, (balanced_start hnodes edges).takeFree?_eq hedges]
  rfl

/-! ## Cycles -/

/-- Whatever leads to a node of the order stands before it. -/
theorem mem_before_of_transGen (hnodes : nodes.Nodup) (hedges : ∀ e ∈ edges, e.2 ∈ nodes)
    {before after : List NodeId} {a : NodeId} (hsplit : sort nodes edges = before ++ id :: after)
    (hpath : TransGen (fun a b => (a, b) ∈ edges) a id) : a ∈ before := by
  induction hpath using TransGen.head_induction_on with
  | single hedge => exact mem_before_of_sort hnodes hedges hsplit hedge
  | head hedge _ ih =>
    obtain ⟨first, last, rfl⟩ := List.append_of_mem ih
    rw [List.append_assoc, List.cons_append] at hsplit
    exact List.mem_append_left _ (mem_before_of_sort hnodes hedges hsplit hedge)

theorem mem_sort_of_path (hnodes : nodes.Nodup) (hedges : ∀ e ∈ edges, e.2 ∈ nodes) {a : NodeId}
    (hpath : Reach.Path edges a id) (hid : id ∈ sort nodes edges) : a ∈ sort nodes edges := by
  induction hpath using ReflTransGen.head_induction_on with
  | refl => exact hid
  | head hedge _ ih => exact ((mem_sort_iff hnodes hedges).1 ih).2 _ hedge

theorem notMem_sort_of_behindCycle (hnodes : nodes.Nodup) (hedges : ∀ e ∈ edges, e.2 ∈ nodes)
    (h : BehindCycle (fun a b => (a, b) ∈ edges) id) : id ∉ sort nodes edges := by
  intro hid
  obtain ⟨a, hcycle, hpath⟩ := h
  obtain ⟨before, after, hsplit⟩ :=
    List.append_of_mem (mem_sort_of_path hnodes hedges hpath hid)
  -- `a` leads to itself, so it would have to stand before itself.
  have hearlier := mem_before_of_transGen hnodes hedges hsplit hcycle
  have hdistinct := nodup_sort hnodes hedges
  rw [hsplit] at hdistinct
  exact (List.nodup_append.1 hdistinct).2.2 a hearlier a List.mem_cons_self rfl

end DataOrder

namespace Graph

variable {g : Graph} {a b id : NodeId}

/-- A stored connection leads from a data output of one live node to another live node. -/
def DataEdge (g : Graph) (a b : NodeId) : Prop :=
  g.hasNode b = true ∧ g.Feeds a b

theorem dataEdge_eq (g : Graph) : g.DataEdge = fun a b => (a, b) ∈ g.dataEdges := by
  funext a b
  exact propext mem_dataEdges_iff.symm

/-- A list of nodes that is sorted along the data edges, as far as their cycles allow. -/
structure SortsAllItCan (g : Graph) (order : List NodeId) : Prop where
  live : ∀ id ∈ order, g.hasNode id = true
  distinct : order.Nodup
  leftOut : ∀ id, g.hasNode id = true → (id ∉ order ↔ BehindCycle g.DataEdge id)
  sourcesFirst : ∀ a b before after, g.DataEdge a b → order = before ++ b :: after → a ∈ before

theorem SortsAllItCan.perm_iff {order : List NodeId} (h : g.SortsAllItCan order) :
    order.Perm g.nodeIds ↔ ∀ id, ¬ TransGen g.DataEdge id id := by
  have hids : g.nodeIds.Nodup := g.nodes.nodup_keys
  rw [List.perm_ext_iff_of_nodup h.distinct hids]
  constructor
  · intro hall id hcycle
    obtain ⟨_, -, hedge⟩ := TransGen.tail'_iff.1 hcycle
    apply (h.leftOut id hedge.1).2 ⟨id, hcycle, .refl⟩
    exact (hall id).2 (mem_nodeIds_of_hasNode hedge.1)
  · intro hacyclic id
    constructor
    · exact fun hid => mem_nodeIds_of_hasNode (h.live id hid)
    · intro hid
      by_contra hout
      obtain ⟨a, hcycle, -⟩ := (h.leftOut id (hasNode_of_mem_nodeIds hid)).1 hout
      exact hacyclic a hcycle

theorem sortsAllItCan_dataOrder (g : Graph) : g.SortsAllItCan g.dataOrder where
  live id hid := hasNode_of_mem_nodeIds (mem_nodeIds_of_mem_dataOrder hid)
  distinct := g.nodup_dataOrder
  leftOut := by
    intro id hlive
    rw [dataEdge_eq]
    constructor
    · intro hout
      by_contra hfree
      exact hout (DataOrder.mem_sort_of_not_behindCycle g.nodes.nodup_keys
        (fun _ he => mem_nodeIds_of_mem_dataEdges he) (mem_nodeIds_of_hasNode hlive) hfree)
    · exact DataOrder.notMem_sort_of_behindCycle g.nodes.nodup_keys
        fun _ he => (mem_nodeIds_of_mem_dataEdges he).2
  sourcesFirst _ _ _ _ hedge hsplit := mem_before_of_dataOrder hsplit hedge.1 hedge.2

/-- In every graph the data order, which is what a graph answers that keeps no outdated
order, is sorted along the data edges as far as their cycles allow; it goes through all
nodes exactly if there are no cycles; and no count of edges is lowered below zero while it
is calculated. -/
theorem dataOrder_sorts_all_it_can (g : Graph) :
    g.SortsAllItCan g.dataOrder ∧
      (g.dataOrder.Perm g.nodeIds ↔ ∀ id, ¬ TransGen g.DataEdge id id) ∧
      DataOrder.sort? g.nodeIds g.dataEdges = some g.dataOrder ∧
      (g.OrderCurrent → g.knowOrder.result = g.dataOrder) := by
  refine ⟨g.sortsAllItCan_dataOrder, g.sortsAllItCan_dataOrder.perm_iff, ?_, ?_⟩
  · exact DataOrder.sort?_eq g.nodes.nodup_keys fun _ he => (mem_nodeIds_of_mem_dataEdges he).2
  · exact OrderCurrent.result_knowOrder

/-- The loop feeds itself; with it the branch behind it is left out, and the event is not. -/
example : Graph.tangled.dataOrder = [⟨0⟩] := by decide

end Graph

end FlowGraph
