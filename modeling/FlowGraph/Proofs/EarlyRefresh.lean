import FlowGraph.Proofs.Lockstep
import FlowGraph.Proofs.Resemblance

/-!
# A refresh before the run

With the setting for it, all values are refreshed before an event is executed.  If each node
has what it depends on refreshed anyway when it is entered, and no pure node has a state of
its own, nobody can tell: the runs with and without the early refresh start from graphs that
resemble each other, and they keep doing so while the same nodes are entered with the same
inputs.
-/

namespace FlowGraph

open Execution

/-- The entering of a node: its id and the inputs with which its behavior is called. -/
abbrev Entry := NodeId × Store Nat

/-- The node that the next step enters, if it enters one. -/
def Execution.Machine.entry? (m : Machine) : Option Entry :=
  match m.stack with
  | .enter id :: _ =>
    (((prepare m.run id).graph.setActive id true).memory? id).map fun memory => (id, memory.inputs)
  | _ => none

/-- The nodes that are entered in the given number of steps, in their order. -/
def Execution.Machine.entries : Nat → Machine → List Entry
  | 0, _ => []
  | steps + 1, m => if m.stack.isEmpty then [] else m.entry?.toList ++ entries steps m.step

/-- The nodes that are entered when a node and everything that follows it is executed.  They
are those of the run that is answered (`Run.exists_halts_of_execute`). -/
def Run.entries (r : Run) (start : NodeId) : List Entry :=
  Machine.entries (stepBound r.graph) ⟨r.record (.executing start), [.enter start]⟩

namespace Execution.Machine

/-- The entry of a step is the call of a behavior, the last one that the step makes. -/
theorem exists_calls_of_entry? {m : Machine} {e : Entry} (he : m.entry? = some e) :
    ∃ before graph, m.calls = before ++ [⟨e.1, graph⟩] ∧
      (graph.memory? e.1).map Memory.inputs = some e.2 := by
  rw [Machine.entry?] at he
  split at he
  next id stack hstack =>
    obtain ⟨memory, hmemory, rfl⟩ := Option.map_eq_some_iff.1 he
    have hlive : (prepare m.run id).graph.hasNode id = true := by
      rw [← Graph.isSome_memory?, ← Graph.memory?_setActive _ id id true, hmemory,
        Option.isSome_some]
    refine ⟨callsOfPrepare m.run id, _, ?_, congrArg (Option.map Memory.inputs) hmemory⟩
    rw [calls, hstack]
    dsimp only
    rw [callsOfEnter, if_pos hlive]
  next => cases he

/-- Until the machine halts, its entries are those of its steps. -/
theorem Halts.entries_eq {m : Machine} {r : Run} {steps limit : Nat} (h : m.Halts steps r)
    (hlimit : steps ≤ limit) :
    m.entries limit = (List.range steps).flatMap fun during =>
      Option.toList <| Machine.entry? <| Machine.step^[during] m := by
  induction steps generalizing m limit with
  | zero =>
    rw [h.empty]
    cases limit <;> rfl
  | succ steps ih =>
    obtain ⟨limit, rfl⟩ := Nat.exists_eq_add_one_of_ne_zero (Nat.ne_zero_of_lt hlimit)
    have hbusy : ¬ m.stack.isEmpty = true :=
      fun hempty => h.stack_ne_nil (List.isEmpty_iff.1 hempty)
    rw [entries, if_neg hbusy, ih h.tail (Nat.le_of_succ_le_succ hlimit),
      List.range_succ_eq_map, List.flatMap_cons, List.flatMap_map]
    rfl

end Execution.Machine

/-- An execution answers the run with which the machine halts, and its entries are those of
the steps until then. -/
theorem Run.exists_halts_of_execute {r out : Run} {start : NodeId}
    (h : r.execute start = .ok out) :
    ∃ steps, (r.launch start).Halts steps out ∧ r.entries start =
      (List.range steps).flatMap fun during =>
        Option.toList <| Machine.entry? <| Machine.step^[during] (r.launch start) := by
  obtain ⟨-, steps, hbound, hhalts⟩ := Run.execute_eq_ok_iff.1 h
  exact ⟨steps, hhalts, hhalts.entries_eq hbound.le⟩

namespace Graph

/-- The nodes that are entered when an event is executed.  They are those of the run that is
answered (`WellFormed.exists_halts_of_fire`). -/
def entriesOfFire (g : Graph) (title : String) : List Entry :=
  match g.findTitle? title with
  | none => []
  | some entry =>
    Run.entries (if g.settings.refreshesFirst then g.refreshAll else { graph := g }) entry

/-- The graph with the early refresh switched on or off. -/
def refreshingFirst (g : Graph) (first : Bool) : Graph :=
  g.setSettings { g.settings with refreshesFirst := first }

/-- Two runs of graphs that resemble each other, both with a refresh on entry. -/
structure Akin (g : Graph) (r r' : Run) : Prop where
  left : g.SameWiring r.graph
  onEntry : r.graph.settings.refreshesOnEntry = true
  onEntry' : r'.graph.settings.refreshesOnEntry = true
  resembles : r.graph.Resembles r'.graph

variable {g : Graph} {r r' : Run} {id start : NodeId}

namespace Akin

theorem of_skeleton (h : Akin g r r') {s s' : Run} (hs : s.graph.skeleton = r.graph.skeleton)
    (hs' : s'.graph.skeleton = r'.graph.skeleton) (hresembles : s.graph.Resembles s'.graph) :
    Akin g s s' where
  left := h.left.trans (.of_skeleton hs.symm)
  onEntry := by
    rw [settings_eq_of_skeleton hs]
    exact h.onEntry
  onEntry' := by
    rw [settings_eq_of_skeleton hs']
    exact h.onEntry'
  resembles := hresembles

/-! ## Entering a node -/

theorem memory?_prepare (hentry : r.graph.settings.refreshesOnEntry = true) (id other : NodeId) :
    (prepare r id).graph.memory? other = (r.graph.refreshInputs id).graph.memory? other := by
  rw [prepare, if_pos hentry, Run.graph_refreshInputs]
  rfl

variable (hwf : g.WellFormed) (hstateless : g.PureStateless) (hkeeps : g.KeepsOutputs)
  (h : Akin g r r')

include hstateless h

theorem prepared (id : NodeId) : Akin g (prepare r id) (prepare r' id) := by
  apply h.of_skeleton (skeleton_prepare r id) (skeleton_prepare r' id)
  have hprepared : ∀ {r : Run}, r.graph.settings.refreshesOnEntry = true →
      (r.graph.refreshInputs id).graph.Resembles (prepare r id).graph := by
    intro r hentry
    apply Resembles.of_memory
    · exact (sameWiring_refreshInputs r.graph id).symm.trans
        (.of_skeleton (skeleton_prepare r id).symm)
    · exact fun other => (memory?_prepare hentry id other).symm
  exact (hprepared h.onEntry).symm.trans
    ((h.resembles.refreshInputs (hstateless.of_wiring h.left) id).trans (hprepared h.onEntry'))

include hwf

/-- When a node is about to be invoked it holds the same inputs in both runs. -/
theorem inputs_prepared (id : NodeId) :
    ((prepare r id).graph.memory? id).map Memory.inputs =
      ((prepare r' id).graph.memory? id).map Memory.inputs := by
  apply map_memory?_ext ((h.prepared hstateless id).resembles.wiring.hasNode_eq id)
  intro pin
  rw [memory?_prepare h.onEntry, memory?_prepare h.onEntry']
  exact h.resembles.inputValue?_refreshInputs (h.left.wellFormed hwf)
    (hstateless.of_wiring h.left) (.inl rfl) pin

include hkeeps

theorem entered (id : NodeId) :
    Akin g (Recursion.enter r id) (Recursion.enter r' id) ∧
      ((Recursion.enter r id).graph.memory? id).map Memory.inputs =
        ((Recursion.enter r' id).graph.memory? id).map Memory.inputs := by
  let marked (r : Run) : Run :=
    { prepare r id with graph := (prepare r id).graph.setActive id true }
  have hmarked : (marked r).graph.Resembles (marked r').graph :=
    (h.prepared hstateless id).resembles.setActive id true
  have hwiring : g.SameWiring (marked r).graph :=
    (h.prepared hstateless id).left.trans (.of_skeleton (skeleton_setActive _ id true).symm)
  have hinputs : ((marked r).graph.memory? id).map Memory.inputs =
      ((marked r').graph.memory? id).map Memory.inputs := by
    rw [memory?_setActive, memory?_setActive]
    exact h.inputs_prepared hwf hstateless id
  obtain ⟨hinvoked, hkept⟩ := hmarked.invoke (hstateless.of_wiring hwiring)
    (hkeeps.of_wiring hwiring) hinputs
  exact ⟨h.of_skeleton (Recursion.skeleton_enter r id) (Recursion.skeleton_enter r' id) hinvoked,
    hkept⟩

end Akin

/-! ## Whole executions -/

/-- Runs of graphs that resemble each other are executed in step. -/
theorem WellFormed.lockstep_akin (hwf : g.WellFormed) (hstateless : g.PureStateless)
    (hkeeps : g.KeepsOutputs) : Lockstep g (fun id => g.hasNode id = true) (Akin g) where
  wiring h := ⟨h.left, h.left.trans h.resembles.wiring⟩
  live hid := hid
  next _ hc := hc.live
  record _ h := h.of_skeleton rfl rfl h.resembles
  enter _ h := (h.entered hwf hstateless hkeeps _).1
  inputs _ h := (h.entered hwf hstateless hkeeps _).2
  showIndex index number _ h := h.of_skeleton (skeleton_setOutput _ _ index _)
    (skeleton_setOutput _ _ index _) (h.resembles.setOutput _ index (.int number))
  leave _ h := h.of_skeleton (skeleton_setActive _ _ false) (skeleton_setActive _ _ false)
    (h.resembles.setActive _ false)

theorem WellFormed.entry?_eq (hwf : g.WellFormed) (hstateless : g.PureStateless) {m m' : Machine}
    (hm : Abreast (fun id => g.hasNode id = true) (Akin g) m m') : m.entry? = m'.entry? := by
  rw [Machine.entry?, Machine.entry?, ← hm.stack]
  split
  next id _ _ =>
    have hinputs := congrArg (Option.map (Prod.mk id)) (hm.run.inputs_prepared hwf hstateless id)
    rw [Option.map_map, Option.map_map] at hinputs
    rw [memory?_setActive, memory?_setActive]
    exact hinputs
  next => rfl

theorem WellFormed.entries_eq (hwf : g.WellFormed) (hstateless : g.PureStateless)
    (hkeeps : g.KeepsOutputs) {m m' : Machine}
    (hm : Abreast (fun id => g.hasNode id = true) (Akin g) m m') (steps : Nat) :
    m.entries steps = m'.entries steps := by
  induction steps generalizing m m' with
  | zero => rfl
  | succ steps ih =>
    rw [Machine.entries, Machine.entries, ← hm.stack, hwf.entry?_eq hstateless hm,
      ih ((hwf.lockstep_akin hstateless hkeeps).step hm)]

theorem hasNode_of_findTitle? {title : String} (h : g.findTitle? title = some start) :
    g.hasNode start = true := by
  obtain ⟨n, hn, rfl⟩ := Option.map_eq_some_iff.1 h
  exact hasNode_of_mem_nodeIds (List.mem_map_of_mem (List.mem_of_find?_eq_some hn))

/-- In a well-formed graph an event answers the run with which the machine halts, after the
early refresh if there is one, and its entries are those of the steps until then. -/
theorem WellFormed.exists_halts_of_fire (hwf : g.WellFormed) {title : String}
    (hentry : g.findTitle? title = some start) :
    let first : Run := if g.settings.refreshesFirst then g.refreshAll else { graph := g }
    ∃ out steps, (first.launch start).Halts steps out ∧ g.fire title = out.answer true ∧
      g.entriesOfFire title = (List.range steps).flatMap fun during =>
        Option.toList <| Machine.entry? <| Machine.step^[during] (first.launch start) := by
  intro first
  have hskeleton : first.graph.skeleton = g.skeleton := g.skeleton_refreshed_first
  have hlive := (hasNode_of_skeleton hskeleton start).trans (hasNode_of_findTitle? hentry)
  obtain ⟨out, hrun⟩ := exists_execute_eq_ok (hwf.of_skeleton hskeleton) hlive
  obtain ⟨steps, hhalts, hentries⟩ := Run.exists_halts_of_execute hrun
  refine ⟨out, steps, hhalts, ?_, ?_⟩
  · rw [fire, hentry]
    dsimp only
    rw [hrun]
  · rw [entriesOfFire, hentry]
    exact hentries

/-- The run of an event with the early refresh and the run without it begin alike. -/
theorem akin_refreshingFirst (hentry : g.settings.refreshesOnEntry = true)
    (hstateless : g.PureStateless) :
    Akin g (g.refreshingFirst true).refreshAll { graph := g.refreshingFirst false } := by
  have hwiring : g.SameWiring (g.refreshingFirst true) := ⟨rfl, rfl⟩
  have hskeleton : (g.refreshingFirst true).refreshAll.graph.skeleton =
      (g.refreshingFirst true).skeleton :=
    skeleton_sweep _ false
  have hrefreshed : (g.refreshingFirst true).Resembles (g.refreshingFirst true).refreshAll.graph :=
    Changes.resembles (hstateless.of_wiring hwiring)
      (changes_sweep (fun id hpure _ => ⟨id, rfl, hpure⟩) false)
  have hswitched : (g.refreshingFirst true).Resembles (g.refreshingFirst false) :=
    .of_memory ⟨rfl, rfl⟩ fun _ => rfl
  refine ⟨hwiring.trans (.of_skeleton hskeleton.symm), ?_, hentry, hrefreshed.symm.trans hswitched⟩
  rw [settings_eq_of_skeleton hskeleton]
  exact hentry

/-- What is left in a node that is not pure is the same in both runs, but for its inputs. -/
theorem Akin.left_in_impure (h : Akin g r r') (himpure : g.isPure id = false) :
    (r.graph.memory? id).map Memory.outputs = (r'.graph.memory? id).map Memory.outputs ∧
      (r.graph.memory? id).map Memory.locals = (r'.graph.memory? id).map Memory.locals := by
  rw [h.left.isPure_eq] at himpure
  exact ⟨h.resembles.outputs_eq himpure, h.resembles.locals id⟩

/-- If each node has what it depends on refreshed when it is entered, no pure node has a state
of its own and no behavior empties outputs, then a refresh of all values before an event is
executed makes no difference to the answer, to which nodes are entered in which order and with
which inputs, or to the outputs and locals that are left in nodes that are not pure.  The
entries compared are those of the two runs answered (`WellFormed.exists_halts_of_fire`). -/
theorem early_refresh_makes_no_difference (hwf : g.WellFormed)
    (hentry : g.settings.refreshesOnEntry = true) (hstateless : g.PureStateless)
    (hkeeps : g.KeepsOutputs) (title : String) :
    ((g.refreshingFirst true).fire title).result = ((g.refreshingFirst false).fire title).result ∧
      (g.refreshingFirst true).entriesOfFire title =
        (g.refreshingFirst false).entriesOfFire title ∧
      ∀ id, g.isPure id = false →
        (((g.refreshingFirst true).fire title).graph.memory? id).map Memory.outputs =
            (((g.refreshingFirst false).fire title).graph.memory? id).map Memory.outputs ∧
          (((g.refreshingFirst true).fire title).graph.memory? id).map Memory.locals =
            (((g.refreshingFirst false).fire title).graph.memory? id).map Memory.locals := by
  have hfound : ∀ first, (g.refreshingFirst first).findTitle? title = g.findTitle? title :=
    fun _ => rfl
  rw [fire, fire, entriesOfFire, entriesOfFire, hfound, hfound]
  cases hentered : g.findTitle? title with
  | none => exact ⟨rfl, rfl, fun _ _ => ⟨rfl, rfl⟩⟩
  | some entry =>
    have hbegin := akin_refreshingFirst hentry hstateless
    have hlive := hasNode_of_findTitle? hentered
    have hlockstep := hwf.lockstep_akin hstateless hkeeps
    have hentries : (g.refreshingFirst true).refreshAll.entries entry =
        Run.entries { graph := g.refreshingFirst false } entry := by
      rw [Run.entries, Run.entries, hbegin.resembles.wiring.stepBound_eq]
      exact hwf.entries_eq hstateless hkeeps (hlockstep.launch hbegin hlive) _
    have hfirst : ∀ first, (g.refreshingFirst first).settings.refreshesFirst = first :=
      fun _ => rfl
    simp only [hfirst, if_true, Bool.false_eq_true, if_false]
    rcases hlockstep.execute hbegin fun _ => hlive with
      ⟨out, out', hout, hout', hends⟩ | ⟨error, herror, herror'⟩
    · rw [hout, hout']
      exact ⟨rfl, hentries, fun _ himpure => hends.left_in_impure himpure⟩
    · rw [herror, herror']
      exact ⟨rfl, hentries, fun _ himpure => hbegin.left_in_impure himpure⟩

/-- In the graph to look at, one node alone has a behavior. -/
theorem react_starting (id : NodeId) (m : Memory) :
    starting.react id m = if id = ⟨1⟩ then
      { m with outputs := m.outputs.set 0 ((m.inputs.get? 0).getD (.int 0)) } else m := by
  split
  next hid =>
    subst hid
    rfl
  next hid =>
    have hidle : ∀ n ∈ starting.nodes.rows, n.id ≠ ⟨1⟩ → n.behavior.isNone = true := by decide
    apply react_of_no_behavior
    intro n hn
    have hne : n.id ≠ ⟨1⟩ := Table.key_of_find? hn ▸ hid
    exact Option.isNone_iff_eq_none.1 (hidle n (Table.mem_of_find? hn) hne)

theorem pureStateless_starting : starting.PureStateless := by
  intro id _
  refine ⟨fun m => ?_, fun m => ?_, fun pin => ?_⟩
  · rw [react_starting]
    split <;> rfl
  · rw [react_starting]
    split <;> rfl
  · by_cases hwritten : id = ⟨1⟩ ∧ pin = 0
    · obtain ⟨rfl, rfl⟩ := hwritten
      left
      use fun inputs => (inputs.get? 0).getD (.int 0)
      intro m
      rw [react_starting, if_pos rfl, Store.get?_set, if_pos rfl]
    · right
      intro m
      rw [react_starting]
      split
      next hid => rw [Store.get?_set, if_neg fun hpin => hwritten ⟨hid, hpin⟩]
      next => rfl

theorem keepsOutputs_starting : starting.KeepsOutputs := by
  intro id m pin hsome
  rw [react_starting]
  split
  · rw [Store.get?_set]
    split
    · rfl
    · exact hsome
  · exact hsome

/-- The early refresh is seen in the display, but not in the run. -/
theorem early_refresh_makes_no_difference_starting :
    starting.WellFormed ∧
      (starting.refreshingFirst true).refreshAll.graph.memory? ⟨3⟩ ≠ starting.memory? ⟨3⟩ ∧
      ((starting.refreshingFirst true).entriesOfFire "On Start").map Prod.fst = [⟨4⟩, ⟨2⟩] ∧
      (starting.refreshingFirst true).entriesOfFire "On Start" =
        (starting.refreshingFirst false).entriesOfFire "On Start" ∧
      (((starting.refreshingFirst true).fire "On Start").graph.memory? ⟨2⟩).map Memory.outputs =
        (((starting.refreshingFirst false).fire "On Start").graph.memory? ⟨2⟩).map
          Memory.outputs := by
  have hwf : starting.WellFormed := by decide
  have hsame := early_refresh_makes_no_difference hwf rfl pureStateless_starting
    keepsOutputs_starting "On Start"
  exact ⟨hwf, by decide, by rfl, hsame.2.1, (hsame.2.2 ⟨2⟩ rfl).1⟩

end Graph

end FlowGraph
