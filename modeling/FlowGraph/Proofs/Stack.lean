import FlowGraph.Proofs.Calls
import FlowGraph.Proofs.Termination
import FlowGraph.Proofs.Wiring

/-!
# The stack of the machine

The machine works at the top of its stack.  What lies below is neither looked at nor changed
until all that lies above has been worked off, and in a graph without cycles it is worked
off.  Whatever comes onto the stack lies behind what was there, so that a node is not
entered again while what follows it is executed.
-/

namespace FlowGraph

namespace Graph

open Execution

/-- A stored connection for which execution goes on from one node to another. -/
structure Schedules (g : Graph) (node next : NodeId) (c : Connection) : Prop where
  stored : c ∈ g.connections.rows
  source_eq : c.source = node
  target_eq : c.target = next
  exec : g.carriesExec c.toLink = true
  apart : next ≠ node
  live : g.hasNode next = true

/-- What is put on the stack at a node: more work at the node itself, or the entering of a
node to which execution goes on. -/
inductive Puts (g : Graph) (node : NodeId) : Pending → Prop
  | enter {next : NodeId} {c : Connection} (h : g.Schedules node next c) : Puts g node (.enter next)
  | leave : Puts g node (.leave node)
  | pass (next limit : Int32) : Puts g node (.pass node next limit)

variable {g g' : Graph} {node next : NodeId} {c : Connection} {p : Pending}

theorem Schedules.edge (h : g.Schedules node next c) :
    (node, next) ∈ Connection.edges g.connections.rows := by
  rw [← h.source_eq, ← h.target_eq]
  exact Connection.mem_edges h.stored

theorem Schedules.of_wiring (hc : g.Schedules node next c)
    (h : g.SameWiring g') : g'.Schedules node next c where
  stored := by
    rw [← h.connections]
    exact hc.stored
  source_eq := hc.source_eq
  target_eq := hc.target_eq
  exec := by
    rw [← h.carriesExec_eq]
    exact hc.exec
  apart := hc.apart
  live := by
    rw [← h.hasNode_eq]
    exact hc.live

theorem Schedules.of_skeleton (hc : g.Schedules node next c) (h : g.skeleton = g'.skeleton) :
    g'.Schedules node next c :=
  hc.of_wiring (.of_skeleton h)

theorem Puts.of_skeleton (h : g.Puts node p) (hskeleton : g.skeleton = g'.skeleton) :
    g'.Puts node p := by
  cases h with
  | enter hc => exact .enter (hc.of_skeleton hskeleton)
  | leave => exact .leave
  | pass next limit => exact .pass next limit

end Graph

namespace Execution

/-- The machine with more on its stack, below what is there. -/
def Machine.over (m : Machine) (below : List Pending) : Machine := ⟨m.run, m.stack ++ below⟩

/-- In the given number of steps, and no fewer, everything is worked off down to what lies
below. -/
structure Machine.WorksOff (m : Machine) (below : List Pending) (steps : Nat) : Prop where
  busy : ∀ earlier < steps, ∃ top above,
    (Machine.step^[earlier] m).stack = top :: above ++ below
  done : (Machine.step^[steps] m).stack = below

/-- Whatever is still to be done lies behind a node. -/
def Machine.Behind (g : Graph) (node : NodeId) (m : Machine) : Prop :=
  ∀ p ∈ m.stack, Relation.TransGen
    (fun a b => (a, b) ∈ Connection.edges g.connections.rows) node p.node

variable {g : Graph} {m : Machine} {r : Run} {id node : NodeId} {below : List Pending}

/-! ## What lies below -/

theorem enter_over (r : Run) (id : NodeId) (stack below : List Pending) :
    enter r id (stack ++ below) = (enter r id stack).over below := by
  rw [enter, enter]
  dsimp only
  split
  · split
    · rfl
    · simp [Machine.over]
  · rfl

theorem pass_over (r : Run) (id : NodeId) (next limit : Int32) (stack below : List Pending) :
    pass r id next limit (stack ++ below) = (pass r id next limit stack).over below := by
  rw [pass, pass]
  split
  · split <;> simp [Machine.over]
  · rfl

theorem step_over (hstack : m.stack ≠ []) (below : List Pending) :
    (m.over below).step = m.step.over below := by
  obtain ⟨r, _ | ⟨top, stack⟩⟩ := m
  · exact absurd rfl hstack
  · cases top with
    | enter id => exact enter_over r id stack below
    | leave id => rfl
    | pass id next limit => exact pass_over r id next limit stack below

theorem calls_over (hstack : m.stack ≠ []) (below : List Pending) :
    (m.over below).calls = m.calls := by
  obtain ⟨r, _ | ⟨top, stack⟩⟩ := m
  · exact absurd rfl hstack
  · cases top <;> rfl

/-- As long as something lies above, what lies below makes no difference. -/
theorem iterate_step_over {steps : Nat}
    (hbusy : ∀ earlier < steps, (Machine.step^[earlier] m).stack ≠ []) (below : List Pending) :
    Machine.step^[steps] (m.over below) = (Machine.step^[steps] m).over below := by
  induction steps with
  | zero => rfl
  | succ steps ih =>
    rw [Function.iterate_succ_apply', Function.iterate_succ_apply',
      ih fun earlier hearlier => hbusy earlier (Nat.lt_succ_of_lt hearlier),
      step_over (hbusy steps (Nat.lt_succ_self steps))]

theorem worksOff_over {steps : Nat} (hempty : (Machine.step^[steps] m).stack = [])
    (hbusy : ∀ earlier < steps, (Machine.step^[earlier] m).stack ≠ []) (below : List Pending) :
    (m.over below).WorksOff below steps := by
  constructor
  · intro earlier hearlier
    have hover := iterate_step_over
      (fun t ht => hbusy t (Nat.lt_trans ht hearlier)) below
    obtain ⟨top, above, hstack⟩ := List.exists_cons_of_ne_nil (hbusy earlier hearlier)
    use top, above
    rw [hover, Machine.over, hstack]
  · rw [iterate_step_over hbusy, Machine.over, hempty]
    rfl

theorem skeleton_iterate_step (m : Machine) (steps : Nat) :
    (Machine.step^[steps] m).run.graph.skeleton = m.run.graph.skeleton := by
  induction steps with
  | zero => rfl
  | succ steps ih => rw [Function.iterate_succ_apply', skeleton_step, ih]

theorem skeleton_of_launch {r₀ : Run} {start : NodeId} {stack : List Pending} {steps : Nat}
    (h : Machine.step^[steps] (r₀.launch start) = ⟨r, stack⟩) :
    r.graph.skeleton = r₀.graph.skeleton := by
  have hskeleton := skeleton_iterate_step (r₀.launch start) steps
  rw [h] at hskeleton
  exact hskeleton

/-! ## What comes onto the stack -/

theorem mem_successors_iff {next : NodeId} {pin : Option Nat} :
    next ∈ successors g node pin ↔
      ∃ c, g.Schedules node next c ∧ pin.all (c.sourcePin == ·) = true := by
  rw [successors, List.mem_map]
  constructor
  · rintro ⟨c, hc, rfl⟩
    obtain ⟨hstored, hleaves⟩ := List.mem_filter.1 hc
    simp only [Bool.and_eq_true, beq_iff_eq, bne_iff_ne] at hleaves
    obtain ⟨⟨⟨⟨hsource, hpin⟩, hexec⟩, hapart⟩, hlive⟩ := hleaves
    exact ⟨c, ⟨hstored, hsource, rfl, hexec, hapart, hlive⟩, hpin⟩
  · rintro ⟨c, h, hpin⟩
    refine ⟨c, List.mem_filter.2 ⟨h.stored, ?_⟩, h.target_eq⟩
    simp only [Bool.and_eq_true, beq_iff_eq, bne_iff_ne, h.target_eq]
    exact ⟨⟨⟨⟨h.source_eq, hpin⟩, h.exec⟩, h.apart⟩, h.live⟩

theorem puts_of_mem_enterAll {pin : Option Nat} {p : Pending} (hp : p ∈ enterAll g id pin) :
    g.Puts id p := by
  obtain ⟨next, hnext, rfl⟩ := List.mem_map.1 hp
  obtain ⟨c, hc, -⟩ := mem_successors_iff.1 hnext
  exact .enter hc

theorem puts_of_mem_continuation {n : Node} {p : Pending} (hp : p ∈ (continuation r n).2) :
    r.graph.Puts n.id p := by
  rw [continuation] at hp
  split at hp
  · exact puts_of_mem_enterAll hp
  · exact puts_of_mem_enterAll hp
  · rw [List.mem_singleton.1 hp]
    exact .pass _ _

theorem puts_of_mem_enter {stack : List Pending} {p : Pending}
    (hp : p ∈ (enter r id stack).stack) : p ∈ stack ∨ r.graph.Puts id p := by
  rw [enter] at hp
  dsimp only at hp
  split at hp
  · split at hp
    next => exact .inl hp
    next n hn =>
      cases List.mem_append.1 hp with
      | inl hfollowing =>
        have hputs := puts_of_mem_continuation hfollowing
        rw [Table.key_of_find? hn] at hputs
        exact .inr (hputs.of_skeleton (Recursion.skeleton_enter r id))
      | inr hrest =>
        cases List.mem_cons.1 hrest with
        | inl hleave => exact .inr (hleave ▸ .leave)
        | inr hold => exact .inl hold
  · exact .inl hp

theorem puts_of_mem_pass {stack : List Pending} {p : Pending} {next limit : Int32}
    (hp : p ∈ (pass r id next limit stack).stack) : p ∈ stack ∨ r.graph.Puts id p := by
  rw [pass] at hp
  split at hp
  · split at hp
    · cases List.mem_append.1 hp with
      | inl hbody =>
        exact .inr ((puts_of_mem_enterAll hbody).of_skeleton (Graph.skeleton_setOutput _ _ _ _))
      | inr hrest =>
        cases List.mem_cons.1 hrest with
        | inl hpass => exact .inr (hpass ▸ .pass _ _)
        | inr hold => exact .inl hold
    · cases List.mem_append.1 hp with
      | inl hcompleted => exact .inr (puts_of_mem_enterAll hcompleted)
      | inr hold => exact .inl hold
  · exact .inl hp

/-- What is on the stack after a step was there before, below the top, or was put there for
the node on top. -/
theorem puts_of_mem_step {p : Pending} (hp : p ∈ m.step.stack) :
    ∃ top below, m.stack = top :: below ∧ (p ∈ below ∨ m.run.graph.Puts top.node p) := by
  obtain ⟨r, _ | ⟨top, below⟩⟩ := m
  · cases hp
  · refine ⟨top, below, rfl, ?_⟩
    cases top with
    | enter id => exact puts_of_mem_enter hp
    | leave id => exact .inl hp
    | pass id next limit => exact puts_of_mem_pass hp

/-- What follows a node is the node itself or lies right behind it. -/
def Follows (g : Graph) (node : NodeId) (p : Pending) : Prop :=
  p.node = node ∨ (node, p.node) ∈ Connection.edges g.connections.rows

theorem follows_of_puts {p : Pending} (h : g.Puts node p) : Follows g node p := by
  cases h with
  | enter hc => exact .inr hc.edge
  | leave => exact .inl rfl
  | pass => exact .inl rfl

/-- What is on the stack after a step was there before or follows what was on top. -/
theorem follows_of_mem_step {p : Pending} (hp : p ∈ m.step.stack) :
    p ∈ m.stack ∨ ∃ q ∈ m.stack, Follows m.run.graph q.node p := by
  obtain ⟨top, below, hstack, horigin⟩ := puts_of_mem_step hp
  rw [hstack]
  cases horigin with
  | inl hbelow => exact .inl (List.mem_cons_of_mem top hbelow)
  | inr hputs => exact .inr ⟨top, List.mem_cons_self, follows_of_puts hputs⟩

/-- Everything stays behind a node behind which it was. -/
theorem Machine.Behind.step (h : m.Behind g node) (hm : m.run.graph.skeleton = g.skeleton) :
    m.step.Behind g node := by
  intro p hp
  cases follows_of_mem_step hp with
  | inl hold => exact h p hold
  | inr hnew =>
    obtain ⟨q, hq, hfollows⟩ := hnew
    rw [Follows, Graph.connections_eq_of_skeleton hm] at hfollows
    cases hfollows with
    | inl hsame =>
      rw [hsame]
      exact h q hq
    | inr hedge => exact (h q hq).tail hedge

theorem Machine.Behind.iterate_step (h : m.Behind g node)
    (hm : m.run.graph.skeleton = g.skeleton) (steps : Nat) :
    (Machine.step^[steps] m).Behind g node := by
  induction steps with
  | zero => exact h
  | succ steps ih =>
    rw [Function.iterate_succ_apply']
    exact ih.step ((skeleton_iterate_step m steps).trans hm)

/-- A node does not lie behind itself. -/
theorem Machine.Behind.node_ne (h : m.Behind g node) (hwf : g.WellFormed) {p : Pending}
    (hp : p ∈ m.stack) : p.node ≠ node := by
  intro heq
  have hcycle := h p hp
  rw [heq] at hcycle
  exact hwf.acyclic node hcycle

/-- What lies behind a node of a well-formed graph is live. -/
theorem Machine.Behind.hasNode (h : m.Behind g node) (hwf : g.WellFormed) {p : Pending}
    (hp : p ∈ m.stack) : g.hasNode p.node = true := by
  obtain ⟨_, -, hlast⟩ := Relation.TransGen.tail'_iff.1 (h p hp)
  exact hwf.hasNode_of_edge hlast

/-! ## What is left alone -/

/-- A step at another node does nothing at a node that is not pure. -/
theorem permits_of_ne (himpure : g.isPure node = false) (hid : id ≠ node)
    {g' : Graph} (hg' : g'.skeleton = g.skeleton) :
    Permits (fun deed => deed.node ≠ node) g' id where
  own deed hdeed := by
    rw [hdeed]
    exact hid
  pulled other _ _ hpure := by
    intro (hother : other = node)
    rw [Graph.isPure_of_skeleton hg', hother, himpure] at hpure
    cases hpure

/-- Whatever step is made next, it does nothing at the node. -/
theorem Machine.Behind.permits (h : m.Behind g node) (hwf : g.WellFormed)
    (hm : m.run.graph.skeleton = g.skeleton) (himpure : g.isPure node = false) (steps : Nat) :
    ∀ p ∈ (Machine.step^[steps] m).stack.head?,
      Permits (fun deed => deed.node ≠ node) (Machine.step^[steps] m).run.graph p.node := by
  intro p hp
  apply permits_of_ne himpure
  · exact (h.iterate_step hm steps).node_ne hwf (List.mem_of_mem_head? hp)
  · exact (skeleton_iterate_step m steps).trans hm

/-- While what lies behind a node is worked off, no change is made at the node. -/
theorem Machine.Behind.changes_iterate_step (h : m.Behind g node) (hwf : g.WellFormed)
    (hm : m.run.graph.skeleton = g.skeleton) (himpure : g.isPure node = false) (steps : Nat) :
    Graph.Changes (fun deed => deed.node ≠ node) m.run.graph
      (Machine.step^[steps] m).run.graph := by
  induction steps with
  | zero => exact Graph.Changes.refl m.run.graph
  | succ steps ih =>
    rw [Function.iterate_succ_apply']
    exact ih.trans (changes_step (h.permits hwf hm himpure steps))

/-- Nor has one been made when a behavior is called. -/
theorem Machine.Behind.changes_of_mem_calls (h : m.Behind g node) (hwf : g.WellFormed)
    (hm : m.run.graph.skeleton = g.skeleton) (himpure : g.isPure node = false) {steps : Nat}
    {call : Call} (hcall : call ∈ (Machine.step^[steps] m).calls) :
    Graph.Changes (fun deed => deed.node ≠ node) m.run.graph call.graph :=
  (h.changes_iterate_step hwf hm himpure steps).trans
    (Execution.changes_of_mem_calls (h.permits hwf hm himpure steps) hcall)

/-- What lies behind a node that is not pure is worked off.  Meanwhile only live nodes are
entered, and when a behavior is called no change has been made at the node. -/
theorem Machine.Behind.exists_worksOff (h : m.Behind g node) (hwf : g.WellFormed)
    (hm : m.run.graph.skeleton = g.skeleton) (himpure : g.isPure node = false)
    (below : List Pending) :
    ∃ steps, (m.over below).WorksOff below steps ∧ ∀ during < steps,
      (∀ id stack, (Machine.step^[during] (m.over below)).stack = .enter id :: stack →
        g.hasNode id = true) ∧
      ∀ call ∈ (Machine.step^[during] (m.over below)).calls,
        Graph.Changes (fun deed => deed.node ≠ node) m.run.graph call.graph := by
  obtain ⟨steps, -, r, hlast, hbusy⟩ := exists_halts hwf hm
  have hempty : (Machine.step^[steps] m).stack = [] := by rw [hlast]
  refine ⟨steps, worksOff_over hempty hbusy below, ?_⟩
  intro during hduring
  have hover := iterate_step_over
    (fun earlier hearlier => hbusy earlier (Nat.lt_trans hearlier hduring)) below
  rw [hover]
  constructor
  · intro id stack htop
    obtain ⟨top, above, habove⟩ := List.exists_cons_of_ne_nil (hbusy during hduring)
    rw [Machine.over, habove] at htop
    cases htop
    have hpending : .enter id ∈ (Machine.step^[during] m).stack := by
      rw [habove]
      exact List.mem_cons_self
    exact (h.iterate_step hm during).hasNode hwf hpending
  · intro call hcall
    rw [calls_over (hbusy during hduring)] at hcall
    exact h.changes_of_mem_calls hwf hm himpure hcall

end Execution

end FlowGraph
