import FlowGraph.Proofs.Following
import Mathlib.Data.List.Chain

/-!
# Nodes that are open during an execution

A node is open from its entering to its leaving.  The open nodes are the ones that still have
to be left, and on the stack they lie in the order in which they were entered: each was entered
for an exec connection from the one below.  As no path leads back to a node, none of them is
open twice, so that the marks say exactly which nodes are open, and every entry of the stack
finds what it is about.
-/

namespace FlowGraph

open Execution

namespace Graph

/-- The node has the flow role of a loop. -/
def IsLoop (g : Graph) (id : NodeId) : Prop :=
  ∃ first limit index body completed,
    (g.node? id).map Node.flow = some (.loop first limit index body completed)

/-- Execution goes on from one node to another. -/
def Continues (g : Graph) (node next : NodeId) : Prop := ∃ c, g.Schedules node next c

/-- No node is marked. -/
def Unmarked (g : Graph) : Prop := ∀ id, g.active? id ≠ some true

end Graph

namespace Execution

/-- The node that an entry of the stack leaves. -/
def Pending.left? : Pending → Option NodeId
  | .leave node => some node
  | _ => none

/-- The node in whose loop an entry of the stack makes a pass. -/
def Pending.looping? : Pending → Option NodeId
  | .pass node _ _ => some node
  | _ => none

/-- The nodes that still have to be left, from the bottom of the stack to its top. -/
def Machine.opened (m : Machine) : List NodeId := (m.stack.filterMap Pending.left?).reverse

/-- The next step finds nothing to do: the node to be entered is missing, or the node of a pass
is missing or no loop. -/
inductive Machine.Skips (m : Machine) : Prop
  | enter {id : NodeId} {stack : List Pending} (hstack : m.stack = .enter id :: stack)
      (hgone : (prepare m.run id).graph.hasNode id = false)
  | pass {id : NodeId} {next limit : Int32} {stack : List Pending}
      (hstack : m.stack = .pass id next limit :: stack) (hother : ¬ m.run.graph.IsLoop id)

/-- How stack and marks belong together. -/
structure Machine.Orderly (m : Machine) (start : NodeId) : Prop where
  live : ∀ p ∈ m.stack, m.run.graph.hasNode p.node = true
  nodup_opened : m.opened.Nodup
  chain : m.opened.IsChain m.run.graph.Continues
  head_eq : ∀ id ∈ m.opened.head?, id = start
  active_iff : ∀ id, m.run.graph.active? id = some true ↔ .leave id ∈ m.stack
  pass_above : ∀ id next limit below, .pass id next limit :: below <:+ m.stack →
    m.run.graph.IsLoop id ∧ ∃ rest, below = .leave id :: rest
  nodup_looping : (m.stack.filterMap Pending.looping?).Nodup
  not_skips : ¬ m.Skips

/-! ## Stacks -/

/-- A stack and the nodes that are open, the innermost first. -/
inductive Stacked (g : Graph) (start : NodeId) : List Pending → List NodeId → Prop
  | empty : Stacked g start [] []
  | start : Stacked g start [.enter start] []
  | first : Stacked g start [.leave start] [start]
  | enter {stack : List Pending} {node next : NodeId} {outer : List NodeId}
      (h : Stacked g start stack (node :: outer)) (hnext : g.Continues node next) :
      Stacked g start (.enter next :: stack) (node :: outer)
  | leave {stack : List Pending} {node next : NodeId} {outer : List NodeId}
      (h : Stacked g start stack (node :: outer)) (hnext : g.Continues node next) :
      Stacked g start (.leave next :: stack) (next :: node :: outer)
  | pass {stack : List Pending} {node : NodeId} {outer : List NodeId}
      (h : Stacked g start (.leave node :: stack) (node :: outer)) (hloop : g.IsLoop node)
      (next limit : Int32) :
      Stacked g start (.pass node next limit :: .leave node :: stack) (node :: outer)

namespace Stacked

variable {g : Graph} {start id : NodeId} {stack : List Pending} {opened outer : List NodeId}
  {next limit : Int32}

/-! ### What lies on top -/

/-- A node that is entered is opened within the innermost of the open nodes. -/
theorem of_enter (h : Stacked g start (.enter id :: stack) opened) :
    Stacked g start (.leave id :: stack) (id :: opened) := by
  cases h with
  | start => exact .first
  | enter h hnext => exact .leave h hnext

/-- A node that is left is the innermost of the open nodes. -/
theorem of_leave (h : Stacked g start (.leave id :: stack) opened) :
    ∃ outer, opened = id :: outer ∧ Stacked g start stack outer := by
  cases h with
  | first => exact ⟨[], rfl, .empty⟩
  | leave h _ => exact ⟨_, rfl, h⟩

/-- A pass is made in the innermost of the open nodes, right above its leaving. -/
theorem of_pass (h : Stacked g start (.pass id next limit :: stack) opened) :
    g.IsLoop id ∧ (∃ rest, stack = .leave id :: rest) ∧ (∃ outer, opened = id :: outer) ∧
      Stacked g start stack opened := by
  cases h with
  | pass h hloop => exact ⟨hloop, ⟨_, rfl⟩, ⟨_, rfl⟩, h⟩

/-- What lies below the top is a stack again. -/
theorem of_cons {top : Pending} (h : Stacked g start (top :: stack) opened) :
    ∃ opened', Stacked g start stack opened' := by
  cases h with
  | start => exact ⟨_, .empty⟩
  | first => exact ⟨_, .empty⟩
  | enter h _ => exact ⟨_, h⟩
  | leave h _ => exact ⟨_, h⟩
  | pass h _ => exact ⟨_, h⟩

/-- The successors of the innermost open node may come onto the stack. -/
theorem append_enterAll (h : Stacked g start stack (id :: outer)) {g' : Graph}
    (hskeleton : g'.skeleton = g.skeleton) (pin : Option Nat) :
    Stacked g start (enterAll g' id pin ++ stack) (id :: outer) := by
  have hnext : ∀ next ∈ successors g' id pin, g.Continues id next := by
    intro next hmem
    obtain ⟨c, hc, -⟩ := mem_successors_iff.1 hmem
    exact ⟨c, hc.of_skeleton hskeleton⟩
  rw [enterAll]
  generalize successors g' id pin = nexts at hnext ⊢
  induction nexts with
  | nil => exact h
  | cons next rest ih =>
    obtain ⟨hfirst, hrest⟩ := List.forall_mem_cons.1 hnext
    exact .enter (ih hrest) hfirst

/-! ### What the whole stack says -/

theorem live (h : Stacked g start stack opened) (hlive : g.hasNode start = true) :
    ∀ p ∈ stack, g.hasNode p.node = true := by
  induction h with
  | empty => exact List.forall_mem_nil _
  | start => exact List.forall_mem_singleton.2 hlive
  | first => exact List.forall_mem_singleton.2 hlive
  | enter _ hnext ih =>
    obtain ⟨c, hc⟩ := hnext
    exact List.forall_mem_cons.2 ⟨hc.live, ih⟩
  | leave _ hnext ih =>
    obtain ⟨c, hc⟩ := hnext
    exact List.forall_mem_cons.2 ⟨hc.live, ih⟩
  | pass _ _ _ _ ih =>
    have hnode := ih _ List.mem_cons_self
    exact List.forall_mem_cons.2 ⟨hnode, ih⟩

theorem filterMap_left? (h : Stacked g start stack opened) :
    stack.filterMap Pending.left? = opened := by
  induction h with
  | empty => rfl
  | start => rfl
  | first => rfl
  | enter _ _ ih => exact ih
  | leave _ _ ih => exact congrArg _ ih
  | pass _ _ _ _ ih => exact ih

theorem mem_opened_iff (h : Stacked g start stack opened) : id ∈ opened ↔ .leave id ∈ stack := by
  rw [← h.filterMap_left?, List.mem_filterMap]
  constructor
  · rintro ⟨p, hp, hleft⟩
    cases p with
    | leave node =>
      cases hleft
      exact hp
    | enter node => cases hleft
    | pass node next limit => cases hleft
  · intro hp
    exact ⟨_, hp, rfl⟩

/-- Passes are made in open nodes, at most one in each.  Below the leaving of a node there is
none in this node itself. -/
theorem filterMap_looping?_sublist (h : Stacked g start stack opened) :
    (stack.filterMap Pending.looping?).Sublist opened ∧
      ∀ id rest, stack = .leave id :: rest →
        (rest.filterMap Pending.looping?).Sublist opened.tail := by
  -- A pass lies right above the leaving of its node, so that the induction has to look past it.
  induction h with
  | empty => exact ⟨.slnil, nofun⟩
  | start => exact ⟨.slnil, nofun⟩
  | first =>
    refine ⟨List.nil_sublist _, ?_⟩
    rintro _ _ ⟨⟩
    exact .slnil
  | enter _ _ ih => exact ⟨ih.1, nofun⟩
  | leave _ _ ih =>
    refine ⟨ih.1.cons _, ?_⟩
    rintro _ _ ⟨⟩
    exact ih.1
  | pass _ _ _ _ ih => exact ⟨(ih.2 _ _ rfl).cons_cons _, nofun⟩

/-- Each open node but the first follows the one that is open around it. -/
theorem isChain (h : Stacked g start stack opened) :
    opened.IsChain fun inner outer => g.Continues outer inner := by
  induction h with
  | empty => exact .nil
  | start => exact .nil
  | first => exact .singleton _
  | enter _ _ ih => exact ih
  | leave _ hnext ih => exact .cons_cons hnext ih
  | pass _ _ _ _ ih => exact ih

theorem getLast?_eq (h : Stacked g start stack opened) : ∀ id ∈ opened.getLast?, id = start := by
  induction h with
  | empty => exact nofun
  | start => exact nofun
  | first => simp
  | enter _ _ ih => exact ih
  | leave _ _ ih => simpa using ih
  | pass _ _ _ _ ih => exact ih

theorem exists_of_suffix {below : List Pending} (h : Stacked g start stack opened)
    (hsuffix : below <:+ stack) : ∃ opened', Stacked g start below opened' := by
  obtain ⟨above, rfl⟩ := hsuffix
  induction above generalizing opened with
  | nil => exact ⟨opened, h⟩
  | cons top above ih =>
    obtain ⟨_, hrest⟩ := h.of_cons
    exact ih hrest

theorem pass_above {below : List Pending} (h : Stacked g start stack opened)
    (hsuffix : .pass id next limit :: below <:+ stack) :
    g.IsLoop id ∧ ∃ rest, below = .leave id :: rest := by
  obtain ⟨_, hpass⟩ := h.exists_of_suffix hsuffix
  exact ⟨hpass.of_pass.1, hpass.of_pass.2.1⟩

/-- From the first open node on, each leads to the next. -/
theorem isChain_reverse (h : Stacked g start stack opened) : opened.reverse.IsChain g.Continues :=
  List.isChain_reverse.2 h.isChain

/-- No node of a well-formed graph is open twice, as no path leads back to it. -/
theorem nodup (h : Stacked g start stack opened) (hwf : g.WellFormed) : opened.Nodup := by
  have hpaths : opened.reverse.IsChain
      (Relation.TransGen fun a b => (a, b) ∈ Connection.edges g.connections.rows) :=
    h.isChain_reverse.imp fun node next ⟨c, hc⟩ => .single hc.edge
  rw [← List.nodup_reverse]
  apply (List.isChain_iff_pairwise.1 hpaths).imp
  rintro node _ hpath rfl
  exact hwf.acyclic node hpath

/-- What follows the invocation of a node may come onto the stack, above its leaving. -/
theorem append_continuation {r : Run} {n : Node}
    (h : Stacked g start (.leave id :: stack) (id :: outer))
    (hskeleton : r.graph.skeleton = g.skeleton) (hn : r.graph.node? id = some n) :
    Stacked g start ((continuation r n).2 ++ .leave id :: stack) (id :: outer) := by
  have hid : n.id = id := Table.key_of_find? hn
  rw [continuation, hid]
  split
  next => exact h.append_enterAll hskeleton none
  next => exact h.append_enterAll hskeleton (some _)
  next first limit index body completed hflow =>
    have hloop : g.IsLoop id := by
      refine ⟨first, limit, index, body, completed, ?_⟩
      rw [← Graph.flow_of_skeleton hskeleton, hn, Option.map_some, hflow]
    exact .pass h hloop _ _

end Stacked

/-! ## Steps -/

/-- A machine under way in a graph, and the nodes that are open, the innermost first. -/
structure Machine.Nests (m : Machine) (g : Graph) (start : NodeId) (opened : List NodeId) :
    Prop where
  skeleton_eq : m.run.graph.skeleton = g.skeleton
  stacked : Stacked g start m.stack opened
  active_iff : ∀ id, m.run.graph.active? id = some true ↔ id ∈ opened

variable {g : Graph} {m : Machine} {start : NodeId} {opened : List NodeId}

theorem active?_prepare (r : Run) (id other : NodeId) :
    (prepare r id).graph.active? other = r.graph.active? other := by
  rw [prepare]
  split
  · have hchanges : Graph.Changes (· ≠ .mark other) r.graph (r.refreshInputs id).graph := by
      apply Run.changes_refreshInputs
      intro pulled _ _ _ hmark
      cases hmark
    exact hchanges.active?_eq_of_not_mark fun hmay => hmay rfl
  · rfl

theorem active?_enter_self {r : Run} {id : NodeId} (hlive : r.graph.hasNode id = true) :
    (Recursion.enter r id).graph.active? id = some true := by
  rw [Recursion.enter, Run.active?_invoke, Graph.active?_setActive_self, active?_prepare,
    Graph.active?]
  obtain ⟨n, hn⟩ := Option.isSome_iff_exists.1 hlive
  rw [hn]
  rfl

theorem active?_enter_of_ne (r : Run) {id other : NodeId} (hother : other ≠ id) :
    (Recursion.enter r id).graph.active? other = r.graph.active? other := by
  rw [Recursion.enter, Run.active?_invoke, Graph.active?_setActive_of_ne _ _ hother,
    active?_prepare]

theorem nests_start {r : Run} (hunmarked : r.graph.Unmarked) (start : NodeId) :
    Machine.Nests ⟨r, [.enter start]⟩ r.graph start [] where
  skeleton_eq := rfl
  stacked := .start
  active_iff id := iff_of_false (hunmarked id) List.not_mem_nil

/-- Entering a node opens it. -/
theorem Machine.Nests.enter {r : Run} {id : NodeId} {stack : List Pending}
    (h : Machine.Nests ⟨r, .enter id :: stack⟩ g start opened)
    (hlive : g.hasNode start = true) :
    (Machine.step ⟨r, .enter id :: stack⟩).Nests g start (id :: opened) := by
  have hnode : g.hasNode id = true := h.stacked.live hlive _ List.mem_cons_self
  have hentered : (Recursion.enter r id).graph.skeleton = g.skeleton :=
    (Recursion.skeleton_enter r id).trans h.skeleton_eq
  have hhas : r.graph.hasNode id = true := (Graph.hasNode_of_skeleton h.skeleton_eq id).trans hnode
  obtain ⟨n, hn⟩ : ∃ n, (Recursion.enter r id).graph.node? id = some n :=
    Option.isSome_iff_exists.1 ((Graph.hasNode_of_skeleton hentered id).trans hnode)
  rw [Recursion.step_enter hhas hn]
  constructor
  · rw [graph_continuation, hentered]
  · exact h.stacked.of_enter.append_continuation hentered hn
  · intro other
    rw [graph_continuation, List.mem_cons]
    by_cases hother : other = id
    · rw [hother, active?_enter_self hhas]
      simp
    · rw [active?_enter_of_ne r hother, h.active_iff]
      simp [hother]

/-- Leaving a node closes it. -/
theorem Machine.Nests.leave {r : Run} {id : NodeId} {stack : List Pending}
    (h : Machine.Nests ⟨r, .leave id :: stack⟩ g start opened) (hwf : g.WellFormed) :
    ∃ outer, (Machine.step ⟨r, .leave id :: stack⟩).Nests g start outer := by
  obtain ⟨outer, rfl, hrest⟩ := h.stacked.of_leave
  have hclosed : id ∉ outer := (List.nodup_cons.1 (h.stacked.nodup hwf)).1
  refine ⟨outer, (Graph.skeleton_setActive r.graph id false).trans h.skeleton_eq, hrest, ?_⟩
  intro other
  change (r.graph.setActive id false).active? other = some true ↔ other ∈ outer
  by_cases hother : other = id
  · rw [hother, Graph.active?_setActive_self]
    simp [hclosed]
  · rw [Graph.active?_setActive_of_ne _ _ hother, h.active_iff]
    simp [hother]

/-- A pass opens and closes nothing. -/
theorem Machine.Nests.pass {r : Run} {id : NodeId} {next limit : Int32} {stack : List Pending}
    (h : Machine.Nests ⟨r, .pass id next limit :: stack⟩ g start opened) :
    (Machine.step ⟨r, .pass id next limit :: stack⟩).Nests g start opened := by
  obtain ⟨hloop, ⟨rest, rfl⟩, ⟨outer, rfl⟩, hbelow⟩ := h.stacked.of_pass
  have ⟨first, last, index, body, completed, hrole⟩ := hloop
  have hflow : (r.graph.node? id).map Node.flow = some (.loop first last index body completed) :=
    (Graph.flow_of_skeleton h.skeleton_eq id).trans hrole
  by_cases hnext : next < limit
  · have hshown : (Recursion.showIndex r id index next).graph.skeleton = g.skeleton :=
      (Graph.skeleton_setOutput r.graph id index _).trans h.skeleton_eq
    rw [Recursion.step_pass_body hflow hnext]
    refine ⟨hshown, (hbelow.pass hloop _ _).append_enterAll hshown _, fun other => ?_⟩
    rw [← h.active_iff]
    exact iff_of_eq (congrArg (· = some true) (Graph.active?_setOutput r.graph id other index _))
  · rw [Recursion.step_pass_completed hflow hnext]
    exact ⟨h.skeleton_eq, hbelow.append_enterAll h.skeleton_eq _, h.active_iff⟩

/-- One step. -/
theorem Machine.Nests.step (h : m.Nests g start opened) (hwf : g.WellFormed)
    (hlive : g.hasNode start = true) : ∃ opened', m.step.Nests g start opened' := by
  obtain ⟨r, _ | ⟨top, stack⟩⟩ := m
  · exact ⟨opened, h⟩
  · cases top with
    | enter id => exact ⟨id :: opened, h.enter hlive⟩
    | leave id => exact h.leave hwf
    | pass id next limit => exact ⟨opened, h.pass⟩

/-- A whole run. -/
theorem Machine.Nests.iterate_step (h : m.Nests g start opened) (hwf : g.WellFormed)
    (hlive : g.hasNode start = true) (steps : Nat) :
    ∃ opened', (Machine.step^[steps] m).Nests g start opened' := by
  induction steps with
  | zero => exact ⟨opened, h⟩
  | succ steps ih =>
    obtain ⟨before, hbefore⟩ := ih
    rw [Function.iterate_succ_apply']
    exact hbefore.step hwf hlive

theorem Machine.Nests.pass_above (h : m.Nests g start opened) {id : NodeId} {next limit : Int32}
    {below : List Pending} (hsuffix : .pass id next limit :: below <:+ m.stack) :
    m.run.graph.IsLoop id ∧ ∃ rest, below = .leave id :: rest := by
  obtain ⟨⟨first, last, index, body, completed, hrole⟩, hbelow⟩ := h.stacked.pass_above hsuffix
  refine ⟨⟨first, last, index, body, completed, ?_⟩, hbelow⟩
  rw [Graph.flow_of_skeleton h.skeleton_eq, hrole]

/-- What a machine with open nodes is like. -/
theorem Machine.Nests.orderly (h : m.Nests g start opened) (hwf : g.WellFormed)
    (hlive : g.hasNode start = true) : m.Orderly start where
  live p hp := by
    rw [Graph.hasNode_of_skeleton h.skeleton_eq]
    exact h.stacked.live hlive p hp
  nodup_opened := by
    rw [Machine.opened, h.stacked.filterMap_left?, List.nodup_reverse]
    exact h.stacked.nodup hwf
  chain := by
    rw [Machine.opened, h.stacked.filterMap_left?]
    exact h.stacked.isChain_reverse.imp fun node next ⟨c, hc⟩ =>
      ⟨c, hc.of_skeleton h.skeleton_eq.symm⟩
  head_eq := by
    rw [Machine.opened, h.stacked.filterMap_left?, List.head?_reverse]
    exact h.stacked.getLast?_eq
  active_iff id := (h.active_iff id).trans h.stacked.mem_opened_iff
  pass_above _ _ _ _ := h.pass_above
  nodup_looping := h.stacked.filterMap_looping?_sublist.1.nodup (h.stacked.nodup hwf)
  not_skips hskips := by
    cases hskips with
    | @enter id stack hstack hgone =>
      have hnode : g.hasNode id = true :=
        h.stacked.live hlive (.enter id) (hstack ▸ List.mem_cons_self)
      rw [Graph.hasNode_of_skeleton ((skeleton_prepare m.run id).trans h.skeleton_eq)] at hgone
      exact absurd hnode (ne_true_of_eq_false hgone)
    | @pass id next limit stack hstack hother =>
      have hsuffix : .pass id next limit :: stack <:+ m.stack := ⟨[], hstack.symm⟩
      exact hother (h.pass_above hsuffix).1

/-- When everything has been worked off, no node is marked. -/
theorem Machine.Nests.unmarked (h : m.Nests g start opened) (hempty : m.stack = []) :
    m.run.graph.Unmarked := by
  have hnone : opened = [] := by
    rw [← h.stacked.filterMap_left?, hempty]
    rfl
  intro id hactive
  have hopen := (h.active_iff id).1 hactive
  rw [hnone] at hopen
  cases hopen

end Execution

/-- An execution that ends leaves no node marked. -/
theorem Graph.Unmarked.of_execute {r r' : Run} (hunmarked : r.graph.Unmarked)
    (hwf : r.graph.WellFormed) {start : NodeId} (h : r.execute start = .ok r') :
    r'.graph.Unmarked := by
  obtain ⟨hlive, steps, -, hhalts⟩ := Run.execute_eq_ok_iff.1 h
  have hfirst := nests_start (r := r.record (.executing start)) hunmarked start
  obtain ⟨opened, hnests⟩ := hfirst.iterate_step hwf hlive steps
  have hlast : Machine.step^[steps] ⟨r.record (.executing start), [.enter start]⟩ = ⟨r', []⟩ :=
    hhalts.last
  rw [hlast] at hnests
  exact hnests.unmarked rfl

end FlowGraph
