import FlowGraph.Proofs.EarlyRefresh
import FlowGraph.Proofs.ExecInputs
import FlowGraph.Proofs.ExecPaths
import FlowGraph.Proofs.Following

/-!
# How often nodes are entered

As long as the inputs by which branches and loops decide are left alone, what is on the stack
tells how often a node will be entered: the entering of a node counts for the weight of all
paths from there, and a pass of a loop for those from the targets of its body, once for each
pass that remains, and for those from what follows it.  Each step takes one from this number
if it enters the node and leaves it as it is otherwise.  So the number at the beginning, the
weight of all paths from the start, is the number of times that the node is entered.
-/

namespace FlowGraph

open Execution

/-- The inputs that a flow role reads. -/
def Flow.reads : Flow → List Nat
  | .sequence => []
  | .branch condition _ _ => [condition]
  | .loop first limit _ _ _ => [first, limit]

namespace Graph

/-- The inputs by which a node decides how execution goes on are left alone: no connection
leads into them, and the behavior of the node does not write them. -/
def Steady (g : Graph) (id : NodeId) : Prop :=
  ∀ n ∈ g.node? id, ∀ index ∈ n.flow.reads,
    ¬ g.Entered id index ∧ ∀ m, (g.react id m).inputs.get? index = m.inputs.get? index

/-- The weight of all paths from the targets of a node's exec connections. -/
def onward (g : Graph) (last id : NodeId) (pin : Option Nat) : Nat :=
  ((Recursion.targets g id pin).map fun target => g.pathSum target last).sum

/-- How often a node will be entered for something that is still to be done. -/
def tally (g : Graph) (last : NodeId) : Pending → Nat
  | .enter id => g.pathSum id last
  | .leave _ => 0
  | .pass id next limit =>
    match (g.node? id).map Node.flow with
    | some (.loop _ _ _ body completed) =>
      (Recursion.passes next limit).length * g.onward last id (some body) +
        g.onward last id (some completed)
    | _ => 0

def stackTally (g : Graph) (last : NodeId) (stack : List Pending) : Nat :=
  (stack.map (g.tally last)).sum

variable {g g' : Graph} {may : Deed → Prop} {id start last : NodeId} {n n' : Node} {r : Run}
  {m : Machine}

/-! ## What follows a node -/

theorem onward_eq (g : Graph) (last id : NodeId) (pin : Option Nat) :
    g.onward last id pin =
      (((g.execOutgoing id).filter fun c => pin.all (c.sourcePin == ·)).map fun c =>
        g.pathSum c.target last).sum := by
  have hrows : (g.connections.rows.filter fun c =>
      c.source == id && pin.all (c.sourcePin == ·) && g.carriesExec c.toLink) =
        (g.execOutgoing id).filter fun c => pin.all (c.sourcePin == ·) := by
    rw [execOutgoing, List.filter_filter]
    apply List.filter_congr
    intro c _
    cases c.source == id <;> simp [Bool.and_comm]
  rw [onward, Recursion.targets, hrows, List.map_map]
  rfl

theorem sum_map_ite_mul {α : Type} (l : List α) (p : α → Bool) (f : α → Nat) (k : Nat) :
    (l.map fun a => (if p a then k else 0) * f a).sum = k * ((l.filter p).map f).sum := by
  induction l with
  | nil => rfl
  | cons a l ih =>
    rw [List.map_cons, List.sum_cons, ih, List.filter_cons]
    cases p a with
    | true => simp only [if_true, List.map_cons, List.sum_cons, Nat.mul_add]
    | false => simp only [Bool.false_eq_true, if_false, Nat.zero_mul, Nat.zero_add]

/-- The targets of one output count as often as execution goes on from there. -/
theorem sum_pinWeight (g : Graph) (last id : NodeId) (out k : Nat) :
    ((g.execOutgoing id).map fun c =>
        (if c.sourcePin = out then k else 0) * g.pathSum c.target last).sum =
      k * g.onward last id (some out) := by
  have hsum := sum_map_ite_mul (g.execOutgoing id) (fun c => c.sourcePin == out)
    (fun c => g.pathSum c.target last) k
  simp only [beq_iff_eq] at hsum
  rw [hsum, onward_eq]
  rfl

theorem WellFormed.pathSum_of_node? (hwf : g.WellFormed) (hn : g.node? id = some n)
    (last : NodeId) :
    g.pathSum id last = (if id = last then 1 else 0) +
      ((g.execOutgoing id).map fun c => n.pinWeight c.sourcePin * g.pathSum c.target last).sum := by
  have hlive : g.hasNode id = true := by rw [hasNode, hn, Option.isSome_some]
  rw [hwf.pathSum_eq hlive]
  congr 2
  apply List.map_congr_left
  intro c hc
  rw [execWeight, (mem_execOutgoing_iff.1 hc).2.1, hn]

/-! ## The stack -/

@[simp]
theorem stackTally_cons (g : Graph) (last : NodeId) (p : Pending) (stack : List Pending) :
    g.stackTally last (p :: stack) = g.tally last p + g.stackTally last stack := by
  rw [stackTally, List.map_cons, List.sum_cons, stackTally]

@[simp]
theorem stackTally_append (g : Graph) (last : NodeId) (above below : List Pending) :
    g.stackTally last (above ++ below) = g.stackTally last above + g.stackTally last below := by
  rw [stackTally, List.map_append, List.sum_append, stackTally, stackTally]

theorem stackTally_singleton (g : Graph) (last : NodeId) (p : Pending) :
    g.stackTally last [p] = g.tally last p := by
  rw [stackTally_cons, stackTally, List.map_nil, List.sum_nil, Nat.add_zero]

theorem stackTally_enterAll (hwf : g.WellFormed) (hr : r.graph.skeleton = g.skeleton)
    (last id : NodeId) (pin : Option Nat) :
    g.stackTally last (enterAll r.graph id pin) = g.onward last id pin := by
  rw [Recursion.enterAll_eq_targets hwf hr, stackTally, List.map_map]
  rfl

theorem tally_pass {first limit index body completed : Nat} {next stop : Int32}
    (hflow : (g.node? id).map Node.flow = some (.loop first limit index body completed)) :
    g.tally last (.pass id next stop) =
      (Recursion.passes next stop).length * g.onward last id (some body) +
        g.onward last id (some completed) := by
  rw [tally, hflow]

/-- What follows the invocation of a node counts for the weight of all paths from there, but
for the empty one, if the node is left with the inputs that decide. -/
theorem WellFormed.stackTally_continuation (hwf : g.WellFormed)
    (hr : r.graph.skeleton = g.skeleton) (hn : g.node? id = some n)
    (hn' : r.graph.node? id = some n')
    (hreads : ∀ index ∈ n.flow.reads, n'.memory.inputs.get? index = n.memory.inputs.get? index)
    (last : NodeId) :
    g.pathSum id last =
      (if id = last then 1 else 0) + g.stackTally last (continuation r n').2 := by
  have hid : n'.id = id := Table.key_of_find? hn'
  have hflow : n'.flow = n.flow := by
    have hflows := flow_of_skeleton hr id
    rw [hn, hn'] at hflows
    exact Option.some.inj hflows
  rw [hwf.pathSum_of_node? hn, continuation, hflow, hid]
  congr 1
  cases hrole : n.flow with
  | sequence =>
    simp only [Node.pinWeight, hrole, Nat.one_mul]
    rw [stackTally_enterAll hwf hr, onward_eq]
    simp only [Option.all_none, List.filter_true]
  | branch condition onTrue onFalse =>
    rw [hrole] at hreads
    have hcondition := Store.getD_congr (hreads condition List.mem_cons_self) .bool false
    simp only [Node.pinWeight, hrole, hcondition]
    rw [stackTally_enterAll hwf hr, sum_pinWeight, Nat.one_mul]
  | loop first limit index body completed =>
    rw [hrole] at hreads
    have hfirst := Store.getD_congr (hreads first List.mem_cons_self) .int (0 : Int32)
    have hlimit := Store.getD_congr
      (hreads limit (List.mem_cons_of_mem _ List.mem_cons_self)) .int (0 : Int32)
    have hpending : (g.node? id).map Node.flow = some (.loop first limit index body completed) := by
      rw [hn, Option.map_some, hrole]
    simp only [Node.pinWeight, hrole, hfirst, hlimit, Nat.add_mul]
    rw [List.sum_map_add, sum_pinWeight, sum_pinWeight, Nat.one_mul, stackTally_singleton,
      tally_pass hpending, Recursion.length_passes]

/-! ## Steps -/

/-- As long as a node is left alone where it reads, it holds there what it held. -/
theorem Steady.get?_eq (hsteady : g.Steady id) (hn : g.node? id = some n)
    (hchanges : Changes may g g') (hn' : g'.node? id = some n') {index : Nat}
    (hindex : index ∈ n.flow.reads) :
    n'.memory.inputs.get? index = n.memory.inputs.get? index := by
  obtain ⟨hfree, hkeeps⟩ := hsteady n hn index hindex
  have hunsupplied : ¬ g.Supplied id index := by
    rintro ⟨c, hc, -, htarget, hpin⟩
    exact hfree ⟨c, hc, htarget, hpin⟩
  have hvalue := hchanges.inputValue?_eq hkeeps hunsupplied
  rw [inputValue?, memory?, hn', inputValue?, memory?, hn] at hvalue
  exact hvalue

theorem map_fst_entry?_enter (r : Run) (id : NodeId) (stack : List Pending) :
    (Machine.entry? ⟨r, .enter id :: stack⟩).toList.map Prod.fst =
      if r.graph.hasNode id = true then [id] else [] := by
  have hskeleton : ((prepare r id).graph.setActive id true).skeleton = r.graph.skeleton :=
    (skeleton_setActive _ id true).trans (skeleton_prepare r id)
  rw [← hasNode_of_skeleton hskeleton, ← isSome_memory?]
  dsimp only [Machine.entry?]
  cases ((prepare r id).graph.setActive id true).memory? id <;> rfl

/-- The entering of a node takes one from the tally of the node. -/
theorem WellFormed.stackTally_enter (hwf : g.WellFormed) (hlast : g.hasNode last = true)
    (hsteady : g.Steady id) (hchanges : Changes (fun _ => True) g r.graph)
    (stack : List Pending) :
    g.stackTally last (.enter id :: stack) =
      ((Machine.entry? ⟨r, .enter id :: stack⟩).toList.map Prod.fst).count last +
        g.stackTally last (Machine.step ⟨r, .enter id :: stack⟩).stack := by
  rw [map_fst_entry?_enter, stackTally_cons, tally, hasNode_of_skeleton hchanges.skeleton]
  by_cases hlive : g.hasNode id = true
  · have hlive' : r.graph.hasNode id = true := by rw [hasNode_of_skeleton hchanges.skeleton, hlive]
    have hskeleton := (Recursion.skeleton_enter r id).trans hchanges.skeleton
    obtain ⟨n, hn⟩ := Option.isSome_iff_exists.1 hlive
    obtain ⟨n', hn'⟩ : ∃ n', (Recursion.enter r id).graph.node? id = some n' := by
      rw [← Option.isSome_iff_exists, ← hasNode, hasNode_of_skeleton hskeleton, hlive]
    have hstep := Recursion.step_enter hlive' hn' stack
    have hentered : Changes (fun _ => True) g (Recursion.enter r id).graph := by
      have hmade := changes_step_any ⟨r, .enter id :: stack⟩
      rw [hstep, graph_continuation] at hmade
      exact hchanges.trans hmade
    -- The role reads after the invocation, but it reads what was there in the beginning.
    have hfollowing := hwf.stackTally_continuation hskeleton hn hn'
      (fun _ hindex => hsteady.get?_eq hn hentered hn' hindex) last
    rw [hstep, stackTally_append, stackTally_cons, if_pos hlive, List.count_singleton, hfollowing]
    simp only [tally, beq_iff_eq]
    omega
  · -- Nothing is entered here, and from here no path leads to a live node.
    have hgone : (prepare r id).graph.hasNode id = false := by
      rw [hasNode_of_skeleton ((skeleton_prepare r id).trans hchanges.skeleton)]
      exact eq_false_of_ne_true hlive
    have hstep : Machine.step ⟨r, .enter id :: stack⟩ = ⟨prepare r id, stack⟩ := by
      change Execution.enter r id stack = _
      rw [Execution.enter, hgone]
      rfl
    rw [pathSum_eq_zero hlast hlive, if_neg hlive, hstep]
    rfl

/-- A pass leaves the tally as it is. -/
theorem WellFormed.stackTally_pass (hwf : g.WellFormed) (hr : r.graph.skeleton = g.skeleton)
    (last id : NodeId) (next limit : Int32) (stack : List Pending) :
    g.stackTally last (Execution.pass r id next limit stack).stack =
      g.stackTally last (.pass id next limit :: stack) := by
  rw [Execution.pass, stackTally_cons, flow_of_skeleton hr]
  split
  next first last' index body completed hflow =>
    rw [tally_pass hflow]
    split
    next hlt =>
      have hshown : (Recursion.showIndex r id index next).graph.skeleton = g.skeleton :=
        (skeleton_setOutput r.graph id index _).trans hr
      let shown := Recursion.showIndex r id index next
      change g.stackTally last (enterAll shown.graph id (some body) ++
        .pass id (next + 1) limit :: stack) = _
      rw [stackTally_append, stackTally_enterAll hwf hshown, stackTally_cons, tally_pass hflow,
        Recursion.passes_eq_cons hlt, List.length_cons, Nat.succ_mul]
      omega
    next hend =>
      rw [stackTally_append, stackTally_enterAll hwf hr, Recursion.passes_eq_nil hend,
        List.length_nil, Nat.zero_mul, Nat.zero_add]
  next hother =>
    rw [tally]
    split
    next first last' index body completed hflow => exact absurd hflow (hother _ _ _ _ _)
    next => exact (Nat.zero_add _).symm

/-- A machine on its way through an execution: small changes have been made, and whatever is
still to be done is at nodes to which a path leads from the start. -/
structure UnderWay (g : Graph) (start : NodeId) (m : Machine) : Prop where
  changes : Changes (fun _ => True) g m.run.graph
  reached : ∀ p ∈ m.stack, ∃ path, g.ExecPath p.node start path

theorem UnderWay.step (h : g.UnderWay start m) : g.UnderWay start m.step where
  changes := h.changes.trans (changes_step_any m)
  reached := by
    intro p hp
    obtain ⟨top, below, hstack, horigin⟩ := puts_of_mem_step hp
    have hreached := h.reached
    rw [hstack] at hreached
    cases horigin with
    | inl hbelow => exact hreached p (List.mem_cons_of_mem top hbelow)
    | inr hputs =>
      obtain ⟨path, hpath⟩ := hreached top List.mem_cons_self
      cases hputs.of_skeleton h.changes.skeleton with
      | enter hc =>
        rename_i c
        have hout : c ∈ g.execOutgoing top.node :=
          mem_execOutgoing_iff.2 ⟨hc.stored, hc.source_eq, hc.exec⟩
        refine ⟨path ++ [c], ?_⟩
        rw [Pending.node, ← hc.target_eq]
        exact hpath.concat hout
      | leave => exact ⟨path, hpath⟩
      | pass => exact ⟨path, hpath⟩

/-- Each step takes from the tally of a node how often the step enters it. -/
theorem UnderWay.stackTally_eq (h : g.UnderWay start m) (hwf : g.WellFormed)
    (hlast : g.hasNode last = true) (hsteady : ∀ path id, g.ExecPath id start path → g.Steady id) :
    g.stackTally last m.stack =
      (m.entry?.toList.map Prod.fst).count last + g.stackTally last m.step.stack := by
  obtain ⟨r, _ | ⟨top, stack⟩⟩ := m
  · rfl
  · cases top with
    | enter id =>
      obtain ⟨path, hpath⟩ := h.reached (.enter id) List.mem_cons_self
      exact hwf.stackTally_enter hlast (hsteady path id hpath) h.changes stack
    | leave id =>
      rw [stackTally_cons]
      rfl
    | pass id next limit =>
      have hpass := hwf.stackTally_pass h.changes.skeleton last id next limit stack
      exact hpass.symm.trans (Nat.zero_add _).symm

/-- When the stack has been worked off, each node has been entered as often as its tally was. -/
theorem UnderWay.count_entries (h : g.UnderWay start m) (hwf : g.WellFormed)
    (hlast : g.hasNode last = true) (hsteady : ∀ path id, g.ExecPath id start path → g.Steady id)
    {steps : Nat} (hfinish : m.finish? steps = some r) :
    ((m.entries steps).map Prod.fst).count last = g.stackTally last m.stack := by
  -- Over the steps that remain, with the tally as the potential that each step pays from.
  induction steps generalizing m with
  | zero => cases hfinish
  | succ steps ih =>
    rw [Machine.finish?] at hfinish
    rw [Machine.entries]
    split at hfinish
    next hempty =>
      rw [if_pos hempty, List.isEmpty_iff.1 hempty]
      rfl
    next hbusy =>
      rw [if_neg hbusy, List.map_append, List.count_append, ih h.step hfinish,
        h.stackTally_eq hwf hlast hsteady]

/-! ## Invocations -/

/-- Without a refresh on entry, the nodes entered are all that is invoked. -/
theorem map_node_calls (hoff : m.run.graph.settings.refreshesOnEntry = false) :
    m.calls.map Call.node = m.entry?.toList.map Prod.fst := by
  obtain ⟨r, _ | ⟨top, stack⟩⟩ := m
  · rfl
  · cases top with
    | enter id =>
      have hprepare : prepare r id = r := by
        rw [prepare, if_neg (ne_true_of_eq_false hoff)]
      have hquiet : callsOfPrepare r id = [] := by
        rw [callsOfPrepare, if_neg (ne_true_of_eq_false hoff)]
      rw [map_fst_entry?_enter]
      dsimp only [Machine.calls]
      rw [callsOfEnter, hprepare, hquiet, List.nil_append, apply_ite (List.map Call.node)]
      rfl
    | leave id => rfl
    | pass id next limit => rfl

theorem invocations_finish? {steps : Nat} (hfinish : m.finish? steps = some r)
    (hoff : m.run.graph.settings.refreshesOnEntry = false) :
    r.invocations = m.run.invocations ++ (m.entries steps).map Prod.fst := by
  induction steps generalizing m with
  | zero => cases hfinish
  | succ steps ih =>
    rw [Machine.finish?] at hfinish
    rw [Machine.entries]
    split at hfinish
    next hempty =>
      rw [if_pos hempty, Option.some.inj hfinish]
      exact (List.append_nil _).symm
    next hbusy =>
      have hoff' : m.step.run.graph.settings.refreshesOnEntry = false := by
        rw [settings_eq_of_skeleton (skeleton_step m), hoff]
      rw [if_neg hbusy, List.map_append, ih hfinish hoff', invocations_step, map_node_calls hoff,
        List.append_assoc]

theorem hasNode_of_entry? {e : Entry} (he : m.entry? = some e) :
    m.run.graph.hasNode e.1 = true := by
  have hfirst : e.1 ∈ m.entry?.toList.map Prod.fst :=
    List.mem_map_of_mem (Option.mem_toList.2 he)
  obtain ⟨r, _ | ⟨top, stack⟩⟩ := m
  · cases he
  · cases top with
    | enter id =>
      rw [map_fst_entry?_enter] at hfirst
      split at hfirst
      next hlive => rw [List.mem_singleton.1 hfirst, hlive]
      next => cases hfirst
    | leave id => cases he
    | pass id next limit => cases he

/-- Only live nodes are entered. -/
theorem hasNode_of_mem_entries (hm : m.run.graph.skeleton = g.skeleton) {steps : Nat} {e : Entry}
    (he : e ∈ m.entries steps) : g.hasNode e.1 = true := by
  induction steps generalizing m with
  | zero => cases he
  | succ steps ih =>
    rw [Machine.entries] at he
    split at he
    · cases he
    · cases List.mem_append.1 he with
      | inl hfirst =>
        rw [← hasNode_of_skeleton hm]
        exact hasNode_of_entry? (Option.mem_toList.1 hfirst)
      | inr hlater => exact ih ((skeleton_step m).trans hm) hlater

/-- A list of live nodes is as long as the nodes occur in it. -/
theorem length_eq_sum_count {ids : List NodeId} (hlive : ∀ id ∈ ids, g.hasNode id = true) :
    ids.length = (g.nodeIds.map fun id => ids.count id).sum := by
  have hlength := length_flatMap_filter (f := fun id : NodeId => id) g.nodes.nodup_keys
    fun id hid => mem_nodeIds_of_hasNode (hlive id hid)
  rw [← hlength, List.length_flatMap]
  congr 1
  apply List.map_congr_left
  intro id _
  rw [List.count_eq_length_filter]

/-! ## Whole executions -/

theorem entries_launch (g : Graph) (start : NodeId) :
    (g.launch start).entries (stepBound g) = Run.entries { graph := g } start :=
  rfl

theorem invocations_launch (g : Graph) (start : NodeId) :
    (g.launch start).run.invocations = [] :=
  rfl

/-- Without a refresh on entry, the statistics count the nodes entered. -/
theorem stats_invoked_of_launch (hfinish : (g.launch start).finish? (stepBound g) = some r)
    (hoff : g.settings.refreshesOnEntry = false) :
    r.stats.invoked =
      (g.nodeIds.map fun id =>
        ((Run.entries { graph := g } start).map Prod.fst).count id).sum := by
  have hinvocations := invocations_finish? hfinish hoff
  rw [invocations_launch, entries_launch, List.nil_append] at hinvocations
  rw [Run.stats_invoked, hinvocations]
  apply length_eq_sum_count
  intro id hid
  obtain ⟨e, he, rfl⟩ := List.mem_map.1 hid
  exact hasNode_of_mem_entries (m := g.launch start) rfl he

theorem underWay_launch (g : Graph) (start : NodeId) : g.UnderWay start (g.launch start) where
  changes := .refl g
  reached := by
    intro p hp
    rw [List.mem_singleton.1 hp]
    exact ⟨[], .here⟩

/-- If the inputs that decide are left alone at all nodes to which exec paths lead, the counts
of an execution multiply along these paths.  A node is entered as often as the paths to it
weigh, all of which are listed; and if nothing is refreshed on entry, the sum over all nodes
is what the statistics report.  The entries counted are those of the run that is answered
(`Run.exists_halts_of_execute`). -/
theorem count_entries_eq_pathSum (hwf : g.WellFormed) (start : NodeId)
    (hsteady : ∀ path id, g.ExecPath id start path → g.Steady id) :
    (g.hasNode start = true → (g.execute start).result = .ok ()) ∧
      (∀ id, g.hasNode id = true →
        (∀ path, path ∈ g.execPaths start id ↔ g.ExecPath id start path) ∧
          (g.execPaths start id).Nodup ∧
          ((Run.entries { graph := g } start).map Prod.fst).count id = g.pathSum start id) ∧
      (g.settings.refreshesOnEntry = false →
        (g.execute start).stats.invoked = (g.nodeIds.map (g.pathSum start)).sum) := by
  obtain ⟨r, hfinish⟩ :=
    exists_finish? (m := g.launch start) hwf rfl (stackWeight_enter_lt_stepBound g start)
  have hcounts : ∀ id, g.hasNode id = true →
      ((Run.entries { graph := g } start).map Prod.fst).count id = g.pathSum start id := by
    intro id hid
    have hcount := (g.underWay_launch start).count_entries hwf hid hsteady hfinish
    rw [entries_launch, launch, stackTally_singleton] at hcount
    exact hcount
  have hexecute : g.hasNode start = true → g.execute start = r.answer (.ok ()) := by
    intro hlive
    have hlaunched : Machine.finish? (stepBound g)
        ⟨Run.record { graph := g } (.executing start), [.enter start]⟩ = some r := hfinish
    rw [execute, Run.execute, if_pos hlive, hlaunched]
  refine ⟨?_, ?_, ?_⟩
  · intro hlive
    rw [hexecute hlive]
    rfl
  · exact fun id hid =>
      ⟨fun _ => hwf.mem_execPaths_iff hid, g.nodup_execPaths start id, hcounts id hid⟩
  · intro hoff
    by_cases hlive : g.hasNode start = true
    · rw [hexecute hlive]
      change r.stats.invoked = _
      rw [stats_invoked_of_launch hfinish hoff]
      congr 1
      apply List.map_congr_left
      intro id hid
      exact hcounts id (hasNode_of_mem_nodeIds hid)
    · have hnone : (g.nodeIds.map (g.pathSum start)).sum = 0 := by
        apply List.sum_eq_zero
        intro k hk
        obtain ⟨id, hid, rfl⟩ := List.mem_map.1 hk
        exact pathSum_eq_zero (hasNode_of_mem_nodeIds hid) hlive
      rw [hnone, execute, Run.execute, if_neg hlive]
      rfl

/-- A graph to look at: one loop in the body of another, and a node that is reached from the
body of the inner loop and from the end of the outer one. -/
def nested : Graph :=
  [.addNode { title := "On Start", outputs := [.exec] },
    .addNode (.countingLoop "Rows"),
    .addNode (.countingLoop "Columns"),
    .addNode { title := "Act", inputs := [.exec "Run", .exec "Finish"] },
    .connect ⟨0⟩ ⟨⟨0⟩, 0, ⟨1⟩, 0⟩,
    .connect ⟨1⟩ ⟨⟨1⟩, 0, ⟨2⟩, 0⟩,
    .connect ⟨2⟩ ⟨⟨2⟩, 0, ⟨3⟩, 0⟩,
    .connect ⟨3⟩ ⟨⟨1⟩, 1, ⟨3⟩, 1⟩,
    .setInput ⟨1⟩ 2 (.int 3),
    .setInput ⟨2⟩ 2 (.int 4),
    .setSettings { refreshesOnEntry := false }].foldl Operation.apply {}

theorem count_entries_eq_pathSum_nested :
    nested.WellFormed ∧ (∀ path id, nested.ExecPath id ⟨0⟩ path → nested.Steady id) ∧
      (nested.execPaths ⟨0⟩ ⟨3⟩).map nested.pathWeight = [12, 1] ∧
      ((Run.entries { graph := nested } ⟨0⟩).map Prod.fst).count ⟨3⟩ = 13 ∧
      (nested.execute ⟨0⟩).stats.invoked = 18 := by
  have hwf : nested.WellFormed := by decide
  have hfree : ∀ n ∈ nested.nodes.rows, ∀ index ∈ n.flow.reads, ¬ nested.Entered n.id index := by
    decide
  have hbehavior : ∀ n ∈ nested.nodes.rows, n.behavior = none := by decide
  have hsteady : ∀ path id, nested.ExecPath id ⟨0⟩ path → nested.Steady id := by
    intro _ id _ n hn index hindex
    rw [← Table.key_of_find? hn]
    refine ⟨hfree n (Table.mem_of_find? hn) index hindex, ?_⟩
    intro m
    rw [react_of_no_behavior fun n hn => hbehavior n (Table.mem_of_find? hn)]
  have hpaths : (nested.execPaths ⟨0⟩ ⟨3⟩).map nested.pathWeight = [12, 1] := by decide
  have hsums : (nested.nodeIds.map (nested.pathSum ⟨0⟩)).sum = 18 := by decide
  obtain ⟨-, hcounts, hinvoked⟩ := count_entries_eq_pathSum hwf ⟨0⟩ hsteady
  refine ⟨hwf, hsteady, hpaths, ?_, (hinvoked rfl).trans hsums⟩
  rw [(hcounts ⟨3⟩ rfl).2.2, pathSum, hpaths]
  rfl

end Graph

end FlowGraph
