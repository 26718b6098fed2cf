import FlowGraph.Proofs.LazyPull
import FlowGraph.Proofs.Operation
import FlowGraph.Proofs.Stack

/-!
# Loops

A loop reads its bounds when it is entered.  It then runs the targets of its body once for
each number from the first bound up to the limit, each pass to its end before the next, and
at last the targets of its completion.  What a pass executes lies behind the loop, so that
the loop is neither entered nor invoked meanwhile and its index output shows the number of
the pass to every behavior that is called.  So it is with every loop that an execution comes
to, and each is left before the execution ends.
-/

namespace FlowGraph

namespace Graph

/-- A connection into a data input of a well-formed graph starts at a data output. -/
theorem WellFormed.carriesData_of_targetPin {g : Graph} {c : Connection} {pin : Pin}
    (hwf : g.WellFormed) (hc : c ∈ g.connections.rows) (hpin : pin ∈ g.targetPin? c.toLink)
    (hdata : pin.isData = true) : g.carriesData c.toLink = true := by
  obtain ⟨sourcePin, hsource, targetPin, htarget, hclass⟩ := hwf.fits c hc
  cases (Option.mem_def.1 htarget).symm.trans hpin
  rw [carriesData, Option.mem_def.1 hsource, Option.any_some, Pin.isData, hclass]
  exact hdata

end Graph

namespace Execution

open Recursion

/-- A loop node with the pins that play a part in its flow role. -/
structure LoopNode where
  node : NodeId
  first : Nat
  limit : Nat
  index : Nat
  body : Nat
  completed : Nat

def LoopNode.flow (l : LoopNode) : Flow := .loop l.first l.limit l.index l.body l.completed

/-- One pass of a loop, with what lies below on the stack. -/
structure LoopPass (g : Graph) (l : LoopNode) (below : List Pending) (limit number : Int32)
    (m : Machine) (steps : Nat) : Prop where
  begins : m.stack = .pass l.node number limit :: below
  /-- The number is shown, and the targets of the body are put on the stack. -/
  shows : m.step = ⟨showIndex m.run l.node l.index number,
    (targets g l.node (some l.body)).map .enter ++ .pass l.node (number + 1) limit :: below⟩
  /-- The number of the next pass is not beyond the range of numbers. -/
  counts : (number + 1).toInt = number.toInt + 1
  /-- The body is worked off before the next pass. -/
  complete : m.step.WorksOff (.pass l.node (number + 1) limit :: below) steps
  /-- The journal notes the calls of each step and no others. -/
  noted : ∀ during < steps, (Machine.step^[during + 1] m.step).run.invocations =
    (Machine.step^[during] m.step).run.invocations ++
      (Machine.step^[during] m.step).calls.map Call.node
  /-- Whenever a behavior is called, the index output shows the number. -/
  visible : ∀ during < steps, ∀ call ∈ (Machine.step^[during] m.step).calls,
    call.graph.outputValue? l.node l.index = some (.int number)
  /-- With refreshing on entry, every node that is entered finds the number in each of its
  data inputs that is connected to the index output. -/
  delivered : g.settings.refreshesOnEntry = true → ∀ during < steps, ∀ id stack,
    (Machine.step^[during] m.step).stack = .enter id :: stack →
      ∃ before graph, (Machine.step^[during] m.step).calls = before ++ [⟨id, graph⟩] ∧
        ∀ c ∈ g.connections.rows, c.source = l.node → c.sourcePin = l.index → c.target = id →
          ∀ pin ∈ g.targetPin? c.toLink, pin.isData = true →
            graph.targetValue? c.toLink = some (.int number)

/-- Passes of a loop, each beginning where the one before has ended. -/
inductive LoopPasses (g : Graph) (l : LoopNode) (below : List Pending) (limit : Int32) :
    List Int32 → Machine → Machine → Prop
  | nil (m : Machine) : LoopPasses g l below limit [] m m
  | cons {number : Int32} {numbers : List Int32} {m m' : Machine} {steps : Nat}
      (hpass : LoopPass g l below limit number m steps)
      (hrest : LoopPasses g l below limit numbers (Machine.step^[steps] m.step) m') :
      LoopPasses g l below limit (number :: numbers) m m'

/-- A loop from the step that enters it to the machine that is about to leave it.  It reads
its bounds after it has been invoked, makes a pass for each number from the first bound up to
the limit, in this order, and then has the targets of its completion worked off. -/
def LoopNode.Loops (g : Graph) (l : LoopNode) (r : Run) (stack : List Pending) (left : Machine) :
    Prop :=
  ∃ n, (Recursion.enter r l.node).graph.node? l.node = some n ∧
    let first := n.memory.inputs.getD l.first .int (0 : Int32)
    let limit := n.memory.inputs.getD l.limit .int (0 : Int32)
    (passes first limit).map Int32.toInt =
        (List.range (limit.toInt - first.toInt).toNat).map (fun k : Nat => first.toInt + k) ∧
      ∃ m last steps,
        LoopPasses g l (.leave l.node :: stack) limit (passes first limit)
          (Machine.step ⟨r, .enter l.node :: stack⟩) m ∧
        m.stack = .pass l.node last limit :: .leave l.node :: stack ∧
        m.step = ⟨m.run, (targets g l.node (some l.completed)).map .enter ++
          .leave l.node :: stack⟩ ∧
        m.step.WorksOff (.leave l.node :: stack) steps ∧
        left = Machine.step^[steps] m.step

/-- Each time the machine enters the loop it makes its passes and its completion, and is about
to leave it before the given number of steps is made. -/
def LoopNode.LoopsWithin (g : Graph) (l : LoopNode) (m : Machine) (steps : Nat) : Prop :=
  ∀ earlier r stack, Machine.step^[earlier] m = ⟨r, .enter l.node :: stack⟩ →
    ∃ later, earlier < later ∧ later < steps ∧
      (Machine.step^[later] m).stack = .leave l.node :: stack ∧
      l.Loops g r stack (Machine.step^[later] m)

variable {g : Graph} {l : LoopNode} {m m' left : Machine} {r : Run} {id start : NodeId}
  {below stack : List Pending} {limit number : Int32}

/-! ## What a node finds when it is entered -/

/-- With refreshing on entry, a node that is entered is called last, and at each of its data
inputs it finds what the source holds. -/
theorem exists_call_of_enter (hwf : m.run.graph.WellFormed)
    (hrefresh : m.run.graph.settings.refreshesOnEntry = true)
    (hlive : m.run.graph.hasNode id = true) (hstack : m.stack = .enter id :: stack) :
    ∃ before graph, m.calls = before ++ [⟨id, graph⟩] ∧
      ∀ c ∈ m.run.graph.dataInputs id, ∀ value,
        graph.sourceValue? c.toLink = some value → graph.targetValue? c.toLink = some value := by
  have hprepared : (prepare m.run id).graph.hasNode id = true := by
    rw [Graph.hasNode_of_skeleton (skeleton_prepare m.run id)]
    exact hlive
  have hcalls : m.calls = callsOfPrepare m.run id ++
      [⟨id, (prepare m.run id).graph.setActive id true⟩] := by
    rw [Machine.calls, hstack]
    dsimp only
    rw [callsOfEnter, if_pos hprepared]
  have hgraph : (prepare m.run id).graph =
      (m.run.graph.refreshInputs id).graph.knowing m.run.graph.knownOrder := by
    rw [prepare, if_pos hrefresh]
    exact Run.graph_refreshInputs m.run id
  refine ⟨_, _, hcalls, ?_⟩
  intro c hc value hvalue
  simp only [Graph.sourceValue?, Graph.targetValue?, Graph.memory?_setActive, hgraph] at hvalue ⊢
  exact hwf.targetValue?_refreshInputs hc (Graph.mem_dependencies_iff.2 .refl) (.inl rfl)
    (fun hne => absurd rfl hne) hvalue

/-- If the index output shows a number when a node is called, the node finds it in each of
its data inputs that is connected to the index output. -/
theorem exists_call_of_visible (hwf : g.WellFormed) (hm : m.run.graph.skeleton = g.skeleton)
    (hrefresh : g.settings.refreshesOnEntry = true) (hlive : g.hasNode id = true)
    (hstack : m.stack = .enter id :: stack)
    (hvisible : ∀ call ∈ m.calls, call.graph.outputValue? l.node l.index = some (.int number)) :
    ∃ before graph, m.calls = before ++ [⟨id, graph⟩] ∧
      ∀ c ∈ g.connections.rows, c.source = l.node → c.sourcePin = l.index → c.target = id →
        ∀ pin ∈ g.targetPin? c.toLink, pin.isData = true →
          graph.targetValue? c.toLink = some (.int number) := by
  have hsettings : m.run.graph.settings = g.settings := (congrArg Graph.settings hm :)
  obtain ⟨before, graph, hcalls, hfilled⟩ := exists_call_of_enter (hwf.of_skeleton hm)
    (hsettings ▸ hrefresh) ((Graph.hasNode_of_skeleton hm id).trans hlive) hstack
  refine ⟨before, graph, hcalls, ?_⟩
  intro c hc hsource hslot htarget pin hpin hdata
  apply hfilled
  · rw [Graph.dataInputs_of_skeleton hm]
    exact Graph.mem_dataInputs_iff.2 ⟨hc, htarget, hwf.carriesData_of_targetPin hc hpin hdata⟩
  · have hown : (⟨id, graph⟩ : Call) ∈ m.calls := by simp [hcalls]
    have hshown := hvisible _ hown
    rw [← hsource, ← hslot] at hshown
    exact hshown

/-! ## Passes -/

theorem behind_targets (g : Graph) (node : NodeId) (r : Run) (pin : Option Nat) :
    Machine.Behind g node ⟨r, (targets g node pin).map .enter⟩ := by
  intro p hp
  obtain ⟨target, htarget, rfl⟩ := List.mem_map.1 hp
  exact Relation.TransGen.single (edge_of_mem_targets htarget)

theorem outputValue?_showIndex {r : Run} (hlive : r.graph.hasNode id = true) (index : Nat)
    (number : Int32) :
    (showIndex r id index number).graph.outputValue? id index = some (.int number) := by
  obtain ⟨n, hn⟩ := Option.isSome_iff_exists.1 hlive
  rw [showIndex, Graph.outputValue?_setOutput, if_pos rfl, Graph.memory?, hn]
  rfl

/-- A number below the limit is passed to the body of the loop. -/
theorem exists_loopPass (hwf : g.WellFormed)
    (hflow : (g.node? l.node).map Node.flow = some l.flow) (himpure : g.isPure l.node = false)
    (hm : m.run.graph.skeleton = g.skeleton)
    (hstack : m.stack = .pass l.node number limit :: below) (hlt : number < limit) :
    ∃ steps, LoopPass g l below limit number m steps := by
  let shown := showIndex m.run l.node l.index number
  let first : Machine := ⟨shown, (targets g l.node (some l.body)).map .enter⟩
  have hfirst : first.run.graph.skeleton = g.skeleton :=
    (Graph.skeleton_setOutput m.run.graph l.node l.index _).trans hm
  have hstep : m.step = first.over (.pass l.node (number + 1) limit :: below) := by
    have hmachine : m = ⟨m.run, .pass l.node number limit :: below⟩ := by rw [← hstack]
    rw [hmachine, step_pass_body ((Graph.flow_of_skeleton hm l.node).trans hflow) hlt,
      enterAll_eq_targets hwf hfirst]
    rfl
  have hlive : m.run.graph.hasNode l.node = true := by
    obtain ⟨n, hn, -⟩ := Option.map_eq_some_iff.1 hflow
    rw [Graph.hasNode_of_skeleton hm, Graph.hasNode, hn, Option.isSome_some]
  have hbehind : first.Behind g l.node := behind_targets g l.node shown (some l.body)
  obtain ⟨steps, hworks, hduring⟩ :=
    hbehind.exists_worksOff hwf hfirst himpure (.pass l.node (number + 1) limit :: below)
  rw [← hstep] at hworks hduring
  have hvisible : ∀ during < steps, ∀ call ∈ (Machine.step^[during] m.step).calls,
      call.graph.outputValue? l.node l.index = some (.int number) := by
    intro during h call hcall
    have hkept := ((hduring during h).2 call hcall).outputs_eq fun _ hdeed => hdeed
    rw [Graph.outputValue?_congr hkept]
    exact outputValue?_showIndex hlive l.index number
  refine ⟨steps, hstack, hstep, toInt_add_one hlt, hworks, ?_, hvisible, ?_⟩
  · intro during _
    rw [Function.iterate_succ_apply', invocations_step]
  · intro hrefresh during h id stack htop
    have hskeleton : (Machine.step^[during] m.step).run.graph.skeleton = g.skeleton :=
      (skeleton_iterate_step m.step during).trans ((skeleton_step m).trans hm)
    exact exists_call_of_visible hwf hskeleton hrefresh ((hduring during h).1 id stack htop) htop
      (hvisible during h)

/-- From any number on, the loop makes the passes up to its limit. -/
theorem exists_loopPasses (hwf : g.WellFormed)
    (hflow : (g.node? l.node).map Node.flow = some l.flow) (himpure : g.isPure l.node = false)
    (hm : m.run.graph.skeleton = g.skeleton)
    (hstack : m.stack = .pass l.node number limit :: below) :
    ∃ m' last, LoopPasses g l below limit (passes number limit) m m' ∧
      m'.run.graph.skeleton = g.skeleton ∧
      m'.stack = .pass l.node last limit :: below ∧ ¬ last < limit := by
  induction hnumbers : passes number limit generalizing number m with
  | nil =>
    have hend : ¬ number < limit := by
      intro hlt
      rw [passes_eq_cons hlt] at hnumbers
      cases hnumbers
    exact ⟨m, number, .nil m, hm, hstack, hend⟩
  | cons first rest ih =>
    have hlt : number < limit := by
      by_contra hend
      rw [passes_eq_nil hend] at hnumbers
      cases hnumbers
    obtain ⟨rfl, hrest⟩ := List.cons.inj ((passes_eq_cons hlt).symm.trans hnumbers)
    obtain ⟨steps, hpass⟩ := exists_loopPass hwf hflow himpure hm hstack hlt
    have hskeleton := (skeleton_iterate_step m.step steps).trans ((skeleton_step m).trans hm)
    obtain ⟨m', last, hpasses, hlast⟩ := ih hskeleton hpass.complete.done hrest
    exact ⟨m', last, .cons hpass hpasses, hlast⟩

/-- When the limit is reached, the targets of the completion are executed. -/
theorem exists_completion (hwf : g.WellFormed)
    (hflow : (g.node? l.node).map Node.flow = some l.flow) (himpure : g.isPure l.node = false)
    (hm : m.run.graph.skeleton = g.skeleton)
    (hstack : m.stack = .pass l.node number limit :: below) (hend : ¬ number < limit) :
    m.step = ⟨m.run, (targets g l.node (some l.completed)).map .enter ++ below⟩ ∧
      ∃ steps, m.step.WorksOff below steps := by
  have hstep : m.step =
      Machine.over ⟨m.run, (targets g l.node (some l.completed)).map .enter⟩ below := by
    have hmachine : m = ⟨m.run, .pass l.node number limit :: below⟩ := by rw [← hstack]
    rw [hmachine, step_pass_completed ((Graph.flow_of_skeleton hm l.node).trans hflow) hend,
      enterAll_eq_targets hwf hm]
    rfl
  obtain ⟨steps, hworks, -⟩ :=
    (behind_targets g l.node m.run (some l.completed)).exists_worksOff hwf hm himpure below
  exact ⟨hstep, steps, hstep ▸ hworks⟩

/-! ## Whole loops -/

theorem LoopPasses.exists_iterate_step {numbers : List Int32}
    (h : LoopPasses g l below limit numbers m m') : ∃ steps, Machine.step^[steps] m = m' := by
  induction h with
  | nil m => exact ⟨0, rfl⟩
  | @cons _ _ _ _ steps _ _ ih =>
    obtain ⟨more, hmore⟩ := ih
    use more + (steps + 1)
    rw [Function.iterate_add_apply, Function.iterate_succ_apply, hmore]

/-- A loop takes at least one step, and leaves on the stack what lay below it. -/
theorem LoopNode.Loops.exists_iterate_step (h : l.Loops g r stack left) :
    left.stack = .leave l.node :: stack ∧
      ∃ steps, Machine.step^[steps + 1] ⟨r, .enter l.node :: stack⟩ = left := by
  obtain ⟨n, -, -, m, -, steps, hpasses, -, -, hworks, rfl⟩ := h
  obtain ⟨before, rfl⟩ := hpasses.exists_iterate_step
  refine ⟨hworks.done, steps + (before + 1), ?_⟩
  rw [Function.iterate_succ_apply, Function.iterate_add_apply, Function.iterate_succ_apply']

/-- A loop that is entered makes its passes and its completion, whatever its body does. -/
theorem exists_loops (hwf : g.WellFormed)
    (hflow : (g.node? l.node).map Node.flow = some l.flow) (hexec : g.isPure l.node = false)
    (hr : r.graph.skeleton = g.skeleton) (stack : List Pending) :
    ∃ left, l.Loops g r stack left := by
  have hentered := (Recursion.skeleton_enter r l.node).trans hr
  obtain ⟨n, hn, hnflow⟩ := Option.map_eq_some_iff.1
    ((Graph.flow_of_skeleton hentered l.node).trans hflow)
  have hlive : r.graph.hasNode l.node = true := by
    rw [← Graph.hasNode_of_skeleton (Recursion.skeleton_enter r l.node), Graph.hasNode, hn,
      Option.isSome_some]
  set first := n.memory.inputs.getD l.first .int (0 : Int32)
  set limit := n.memory.inputs.getD l.limit .int (0 : Int32)
  let looping : Machine := ⟨(Recursion.enter r l.node).record (.looping l.node first limit),
    .pass l.node first limit :: .leave l.node :: stack⟩
  have hlooping : looping.run.graph.skeleton = g.skeleton := hentered
  have hstep : Machine.step ⟨r, .enter l.node :: stack⟩ = looping := by
    rw [step_enter hlive hn, continuation, hnflow, LoopNode.flow, Table.key_of_find? hn]
    rfl
  obtain ⟨m, last, hpasses, hm, hstack, hend⟩ :=
    exists_loopPasses (m := looping) hwf hflow hexec hlooping rfl
  obtain ⟨hcompletion, steps, hworks⟩ := exists_completion hwf hflow hexec hm hstack hend
  refine ⟨_, n, hn, map_toInt_passes _ _, m, last, steps, ?_, hstack, hcompletion, hworks, rfl⟩
  rw [hstep]
  exact hpasses

/-- Each time an execution enters a loop that has an exec input, and so is not pure, the
bounds that are read after the loop has been invoked decide about all that follows.  There
is one pass for each number from the first bound up to the limit, in this order; whatever
the body does, each pass shows its number to all that it calls and ends before the next
begins.  Then the targets of the completion are executed once. -/
theorem loop_exact (r₀ : Run) {r : Run} {start : NodeId} {earlier : Nat}
    (hwf : r₀.graph.WellFormed)
    (hflow : (r₀.graph.node? l.node).map Node.flow = some l.flow)
    (hexec : r₀.graph.isPure l.node = false)
    (hentry : Machine.step^[earlier] ⟨r₀.record (.executing start), [.enter start]⟩ =
      ⟨r, .enter l.node :: stack⟩) :
    ∃ n, (Recursion.enter r l.node).graph.node? l.node = some n ∧
      let first := n.memory.inputs.getD l.first .int (0 : Int32)
      let limit := n.memory.inputs.getD l.limit .int (0 : Int32)
      (passes first limit).map Int32.toInt =
          (List.range (limit.toInt - first.toInt).toNat).map (fun k : Nat => first.toInt + k) ∧
        ∃ m last steps,
          LoopPasses r₀.graph l (.leave l.node :: stack) limit (passes first limit)
            (Machine.step ⟨r, .enter l.node :: stack⟩) m ∧
          m.stack = .pass l.node last limit :: .leave l.node :: stack ∧
          m.step = ⟨m.run, (targets r₀.graph l.node (some l.completed)).map .enter ++
            .leave l.node :: stack⟩ ∧
          m.step.WorksOff (.leave l.node :: stack) steps := by
  have hr := skeleton_of_launch hentry
  obtain ⟨-, n, hn, hnumbers, m, last, steps, hpasses, hstack, hcompletion, hworks, -⟩ :=
    exists_loops hwf hflow hexec hr stack
  exact ⟨n, hn, hnumbers, m, last, steps, hpasses, hstack, hcompletion, hworks⟩

/-- Every loop that the machine enters is about to be left before the machine halts. -/
theorem loopsWithin_of_halts {r₀ out : Run} {steps : Nat} (hwf : r₀.graph.WellFormed)
    (hhalts : (r₀.launch start).Halts steps out)
    (hflow : (r₀.graph.node? l.node).map Node.flow = some l.flow)
    (hexec : r₀.graph.isPure l.node = false) :
    l.LoopsWithin r₀.graph (r₀.launch start) steps := by
  intro earlier r stack hentry
  obtain ⟨left, hloops⟩ := exists_loops hwf hflow hexec (skeleton_of_launch hentry) stack
  obtain ⟨hstack, during, hleft⟩ := hloops.exists_iterate_step
  have hlater : Machine.step^[during + 1 + earlier] (r₀.launch start) = left := by
    rw [Function.iterate_add_apply, hentry, hleft]
  refine ⟨during + 1 + earlier, by omega, ?_, ?_, ?_⟩
  · apply hhalts.lt_of_busy
    rw [hlater, hstack]
    exact List.cons_ne_nil _ _
  · rw [hlater, hstack]
  · rw [hlater]
    exact hloops

/-- A live node of a well-formed graph is executed by running the machine until it halts, and
each loop that it enters meanwhile makes its passes and its completion and is left before. -/
theorem execute_loopsWithin (hwf : g.WellFormed) (hlive : g.hasNode start = true)
    (hflow : (g.node? l.node).map Node.flow = some l.flow) (hexec : g.isPure l.node = false) :
    ∃ out, ∃ steps < stepBound g,
      g.execute start = out.answer (.ok ()) ∧
        (Run.launch { graph := g } start).Halts steps out ∧
        l.LoopsWithin g (Run.launch { graph := g } start) steps := by
  obtain ⟨out, hrun⟩ := exists_execute_eq_ok (r := { graph := g }) hwf hlive
  obtain ⟨-, steps, hbound, hhalts⟩ := Run.execute_eq_ok_iff.1 hrun
  refine ⟨out, steps, hbound, ?_, hhalts, loopsWithin_of_halts hwf hhalts hflow hexec⟩
  rw [Graph.execute, hrun]

/-- A graph to look at: a loop that is started by an event, and in its body a node that is
shown the index. -/
def showing : Graph :=
  [.addNode { title := "On Start", outputs := [.exec] },
    .addNode (.countingLoop "Count"),
    .addNode { title := "Show", inputs := [.exec, .data "Number" (.int 0)] },
    .connect ⟨0⟩ ⟨⟨0⟩, 0, ⟨1⟩, 0⟩,
    .connect ⟨1⟩ ⟨⟨1⟩, 0, ⟨2⟩, 0⟩,
    .connect ⟨2⟩ ⟨⟨1⟩, 2, ⟨2⟩, 1⟩,
    .setInput ⟨1⟩ 2 (.int 3)].foldl Operation.apply {}

/-- The machine when the graph is about to be executed. -/
def showingStart : Machine :=
  ⟨Run.record { graph := showing } (.executing ⟨0⟩), [.enter ⟨0⟩]⟩

theorem loop_exact_showing :
    showing.WellFormed ∧ showing.settings.refreshesOnEntry = true ∧
      showingStart.step.stack = [.enter ⟨1⟩, .leave ⟨0⟩] ∧
      ∃ m steps, LoopPasses showing ⟨⟨1⟩, 1, 2, 2, 0, 1⟩ [.leave ⟨1⟩, .leave ⟨0⟩] 3 [0, 1, 2]
          showingStart.step.step m ∧
        m.step.WorksOff [.leave ⟨1⟩, .leave ⟨0⟩] steps := by
  have hwf : showing.WellFormed := by decide
  have hstack : showingStart.step.stack = [.enter ⟨1⟩, .leave ⟨0⟩] := by decide
  have hmachine : showingStart.step =
      ⟨showingStart.step.run, [.enter ⟨1⟩, .leave ⟨0⟩]⟩ := by
    rw [← hstack]
  have hentry : Machine.step^[1] showingStart =
      ⟨showingStart.step.run, [.enter ⟨1⟩, .leave ⟨0⟩]⟩ := hmachine
  obtain ⟨n, hn, -, m, -, steps, hpasses, -, -, hworks⟩ :=
    loop_exact (l := ⟨⟨1⟩, 1, 2, 2, 0, 1⟩) (Run.mk showing []) hwf (by decide) (by decide) hentry
  have hbounds : ((Recursion.enter showingStart.step.run ⟨1⟩).graph.node? ⟨1⟩).map (fun n =>
      (n.memory.inputs.getD 1 .int (0 : Int32), n.memory.inputs.getD 2 .int (0 : Int32))) =
        some (0, 3) := by decide
  rw [hn, Option.map_some, Option.some.injEq, Prod.mk.injEq] at hbounds
  rw [hbounds.1, hbounds.2, ← hmachine] at hpasses
  refine ⟨hwf, by decide, hstack, m, steps, ?_, hworks⟩
  exact hpasses

end Execution

end FlowGraph
