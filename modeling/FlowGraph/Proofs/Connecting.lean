import FlowGraph.Proofs.Admission
import FlowGraph.Proofs.Operation
import FlowGraph.Proofs.Pass
import FlowGraph.Proofs.Refusal
import FlowGraph.Proofs.Vacancy

/-!
# What connecting does, and how it is undone

A new connection is stored behind all others and refreshed at once, and no other is: if it
carries data, then its source is invoked if it is pure, and what the source offers goes into
one input of the target.  To take the connection out again brings back the connections from
before and puts that one input back to its default.  An invocation of the source is not
taken back.
-/

namespace FlowGraph

/-- The memory with an input slot that holds a value, or holds none. -/
def Memory.assign (m : Memory) (pin : Nat) : Option Value → Memory
  | none => { m with inputs := m.inputs.erase pin }
  | some value => { m with inputs := m.inputs.set pin value }

/-- To put an input back concerns data only. -/
theorem Node.memory_resetInput {n : Node} {index : Nat} {pin : Pin}
    (hpin : n.input? index = some pin) :
    (n.resetInput index).memory =
      if pin.isData then n.memory.assign index pin.default else n.memory := by
  rw [resetInput, hpin]
  dsimp only
  split
  · cases pin.default <;> rfl
  · rfl

namespace Run

theorem memory?_invokeIfPure (r : Run) (id other : NodeId) :
    (r.invokeIfPure id).graph.memory? other =
      if r.graph.isPure id = true ∧ other = id then (r.graph.memory? other).map (r.graph.react id)
      else r.graph.memory? other := by
  rw [invokeIfPure]
  split
  next hpure => simp only [memory?_invoke, hpure, true_and]
  next hpure => rw [if_neg fun h => hpure h.1]

theorem moves_invokeIfPure (r : Run) (id : NodeId) :
    (r.invokeIfPure id).moves = r.moves ++ if r.graph.isPure id then [.invoked id] else [] := by
  rw [invokeIfPure]
  split
  next hpure => exact moves_invoke (Graph.hasNode_of_isPure hpure)
  next => exact (List.append_nil _).symm

end Run

namespace Graph

variable {g g' : Graph} {r : Run} {c : Connection} {l : Link} {id k : ConnectionId}

/-- A run that has refreshed one connection: the behavior of its source has worked once if
the source is pure, and no other behavior has; and the target has received what the source
then holds. -/
structure PullsAlong (g : Graph) (c : Connection) (r : Run) : Prop where
  apart : c.source ≠ c.target
  moves : r.moves =
    (if g.isPure c.source then [.invoked c.source] else []) ++
      if (r.graph.sourceValue? c.toLink).isSome then [.copied c.id] else []
  source : r.graph.memory? c.source =
    if g.isPure c.source then (g.memory? c.source).map (g.react c.source) else g.memory? c.source
  target : r.graph.memory? c.target =
    (g.memory? c.target).map (·.receive c.targetPin (r.graph.sourceValue? c.toLink))
  others : ∀ other, other ≠ c.source → other ≠ c.target → r.graph.memory? other = g.memory? other

/-- A run that has added one connection. -/
structure Joins (g : Graph) (c : Connection) (r : Run) : Prop where
  last : r.graph.connections.rows = g.connections.rows ++ [c]
  skeleton : r.graph.skeleton = (g.restore c).skeleton
  refreshed :
    (g.carriesExec c.toLink = true ∧ r.moves = [] ∧
      ∀ other, r.graph.memory? other = g.memory? other) ∨
    (g.carriesData c.toLink = true ∧ g.PullsAlong c r)

/-- A graph from which a connection has been taken out that is not in `old`.  Of what nodes
remember, one input of one node has changed, if it takes data. -/
structure Undoes (g : Graph) (l : Link) (old g' : Graph) : Prop where
  rows : g'.connections.rows = old.connections.rows
  skeleton : g'.skeleton = old.skeleton
  target : ∃ pin ∈ g.targetPin? l, g'.memory? l.target = (g.memory? l.target).map fun m =>
    if pin.isData then m.assign l.targetPin pin.default else m
  others : ∀ other ≠ l.target, g'.memory? other = g.memory? other

/-! ## Connecting -/

theorem carriesExec_or_carriesData (h : (g.sourcePin? l).isSome = true) :
    g.carriesExec l = true ∨ g.carriesData l = true := by
  obtain ⟨pin, hpin⟩ := Option.isSome_iff_exists.1 h
  rw [carriesExec, carriesData, hpin, Option.any_some, Option.any_some, Pin.isExec, Pin.isData]
  cases pin.cls <;> decide

theorem connection?_restore (g : Graph) (c : Connection) :
    (g.restore c).connection? c.id = some c := by
  have hfind := Table.find?_put g.connections c c.id
  rwa [if_pos rfl] at hfind

/-- The run in which a link is joined that has been let in. -/
theorem connect_eq_refreshed (hok : g.check l = .ok ()) :
    (g.connect id l).toRun =
      let c : Connection := { toLink := l, id := id }
      let stored : Run := { graph := g.restore c, journal := [.connected l] }
      if g.carriesData l then (stored.invokeIfPure l.source).copy c else stored := by
  have hfind := connection?_restore g { toLink := l, id := id }
  rw [connect, hok]
  dsimp only [Run.answer, Run.refreshConnection]
  rw [hfind]
  rfl

theorem pullsAlong_copy (hfits : r.graph.Fits c.toLink) (hends : c.source ≠ c.target)
    (hmoves : r.moves = []) :
    r.graph.PullsAlong c ((r.invokeIfPure c.source).copy c) := by
  set invoked := r.invokeIfPure c.source with hinvoked
  have hskeleton : invoked.graph.skeleton = r.graph.skeleton :=
    Run.skeleton_invokeIfPure r c.source
  have hoffer : (invoked.copy c).graph.sourceValue? c.toLink =
      invoked.graph.sourceValue? c.toLink :=
    sourceValue?_congr (Run.outputs_copy invoked c c.source)
  have hdelivery : invoked.graph.delivery? c.toLink = invoked.graph.sourceValue? c.toLink :=
    ((fits_iff_of_skeleton hskeleton c.toLink).2 hfits).delivery?_eq
  refine ⟨hends, ?_, ?_, ?_, ?_⟩
  · rw [Run.moves_copy, hdelivery, ← hoffer, Run.moves_invokeIfPure, hmoves, List.nil_append]
  · rw [Run.memory?_copy, if_neg hends, hinvoked, Run.memory?_invokeIfPure]
    simp only [and_true]
  · have hkept : ¬ (r.graph.isPure c.source = true ∧ c.target = c.source) :=
      fun h => hends h.2.symm
    rw [Run.memory?_copy, if_pos rfl, hdelivery, ← hoffer, hinvoked, Run.memory?_invokeIfPure,
      if_neg hkept]
  · intro other hsource htarget
    have hkept : ¬ (r.graph.isPure c.source = true ∧ other = c.source) := fun h => hsource h.2
    rw [Run.memory?_copy, if_neg htarget, hinvoked, Run.memory?_invokeIfPure, if_neg hkept]

theorem joins_connect (hunused : g.connection? id = none) (hok : g.check l = .ok ()) :
    g.Joins { toLink := l, id := id } (g.connect id l).toRun := by
  have hkeeps := check_eq_ok_iff_keeps.1 hok
  have hskeleton := (connect_of_admitted id hok).1
  refine ⟨?_, hskeleton, ?_⟩
  · rw [connections_eq_of_skeleton hskeleton, rows_restore_of_unused hunused]
  rw [connect_eq_refreshed hok]
  dsimp only
  cases carriesExec_or_carriesData (hkeeps .outputPin) with
  | inl hexec =>
    rw [if_neg (ne_true_of_eq_false (carriesData_eq_false_of_carriesExec hexec))]
    exact .inl ⟨hexec, rfl, fun _ => rfl⟩
  | inr hdata =>
    rw [if_pos hdata]
    have hpulls := pullsAlong_copy (c := { toLink := l, id := id })
      (r := { graph := g.restore { toLink := l, id := id }, journal := [.connected l] })
      (check_eq_ok_iff.1 hok).fits (hkeeps .noLoop) rfl
    exact .inr ⟨hdata, hpulls.apart, hpulls.moves, hpulls.source, hpulls.target, hpulls.others⟩

/-! ## Taking the connection out again -/

theorem disconnect_eq_of_alone (hc : g.connection? id = some c)
    (halone : ∀ d ∈ g.connections.rows, d.id ≠ id → ¬ d.toLink.Meets c.toLink) :
    (g.disconnect id).1 =
      { g with connections := g.connections.erase id, knownOrder := none }.resetInput
        c.target c.targetPin := by
  have hfree : ¬ { g with connections := g.connections.erase id, knownOrder := none }.isConnected
      c.target c.targetPin .input = true := by
    rw [isConnected_eq_true_iff]
    rintro ⟨d, hd, hmeets⟩
    obtain ⟨hstored, hother⟩ := List.mem_filter.1 hd
    exact halone d hstored (of_decide_eq_true hother) hmeets
  rw [disconnect, hc]
  dsimp only
  rw [vacate, if_neg hfree]

theorem memory?_resetInput {index : Nat} {pin : Pin} {node : NodeId}
    (hpin : (g.node? node).bind (·.input? index) = some pin) (other : NodeId) :
    (g.resetInput node index).memory? other =
      if other = node then (g.memory? other).map fun m =>
        if pin.isData then m.assign index pin.default else m
      else g.memory? other := by
  rw [memory?, resetInput, node?_modify]
  split
  next hother =>
    obtain ⟨n, hn, hinput⟩ := Option.bind_eq_some_iff.1 hpin
    rw [hother, memory?, hn, Option.map_some, Option.map_some, Option.map_some,
      Option.map_some, Node.memory_resetInput hinput]
  next => rfl

theorem undoes_disconnect (hunused : g.connection? id = none) (hok : g.check l = .ok ())
    (hskeleton : g'.skeleton = (g.restore { toLink := l, id := id }).skeleton) :
    g'.Undoes l g (g'.disconnect id).1 := by
  let c : Connection := { toLink := l, id := id }
  have hconnections : g'.connections = (g.restore c).connections :=
    connections_eq_of_skeleton hskeleton
  have hfound : g'.connection? id = some c := by
    rw [connection?, hconnections]
    exact connection?_restore g c
  have hrows : g'.connections.rows = g.connections.rows ++ [c] := by
    rw [hconnections, rows_restore_of_unused hunused]
  have halone : ∀ d ∈ g'.connections.rows, d.id ≠ id → ¬ d.toLink.Meets l := by
    intro d hd hother
    rw [hrows, List.mem_append, List.mem_singleton] at hd
    rcases hd with hstored | rfl
    · exact check_eq_ok_iff_keeps.1 hok .freeInput d hstored
    · exact absurd rfl hother
  have herase : g'.connections.erase id = g.connections := by
    rw [hconnections]
    exact Table.erase_put_of_find?_eq_none hunused
  have hreset := disconnect_eq_of_alone hfound halone
  rw [herase] at hreset
  obtain ⟨pin, hpin⟩ := Option.isSome_iff_exists.1 (check_eq_ok_iff_keeps.1 hok .inputPin)
  have hpin' : g'.targetPin? l = some pin := (targetPin?_of_skeleton hskeleton l).trans hpin
  have hmemory : ∀ other, (g'.disconnect id).1.memory? other =
      if other = l.target then (g'.memory? other).map fun m =>
        if pin.isData then m.assign l.targetPin pin.default else m
      else g'.memory? other := by
    rw [hreset]
    exact memory?_resetInput hpin'
  constructor
  · rw [hreset]
    rfl
  · have hother : { g' with connections := g.connections, knownOrder := none }.skeleton =
        { g'.skeleton with connections := g.connections } := rfl
    rw [hreset, skeleton_resetInput, hother, hskeleton]
    rfl
  · exact ⟨pin, hpin', (hmemory l.target).trans (if_pos rfl)⟩
  · intro other hother
    rw [hmemory, if_neg hother]

/-- If a link is let in under a new id, then it is stored behind all others under that id and
nothing but it is refreshed.  To remove it at once leaves the connections as they were before
and gives back the default of one input. -/
theorem connect_pulls_and_is_undone (hunused : g.connection? id = none)
    (hok : (g.connect id l).result = .ok k) :
    k = id ∧
      g.Joins { toLink := l, id := id } (g.connect id l).toRun ∧
      ((g.connect id l).graph.disconnect k).2 = some { toLink := l, id := id } ∧
      (g.connect id l).graph.Undoes l g ((g.connect id l).graph.disconnect k).1 := by
  cases hcheck : g.check l with
  | error refusal =>
    rw [(connect_of_refused id hcheck).2] at hok
    cases hok
  | ok =>
    obtain ⟨hskeleton, hresult⟩ := connect_of_admitted id hcheck
    have hid : id = k := Except.ok.inj (hresult.symm.trans hok)
    subst hid
    refine ⟨rfl, joins_connect hunused hcheck, ?_, undoes_disconnect hunused hcheck hskeleton⟩
    rw [result_disconnect, connection?, connections_eq_of_skeleton hskeleton]
    exact connection?_restore g { toLink := l, id := id }

/-- A second link between two nodes, of which the first is pure. -/
theorem connect_pulls_and_is_undone_feeding :
    feeding.connection? ⟨9⟩ = none ∧
      (feeding.connect ⟨9⟩ ⟨⟨1⟩, 0, ⟨2⟩, 1⟩).result = .ok ⟨9⟩ ∧
      feeding.Joins { toLink := ⟨⟨1⟩, 0, ⟨2⟩, 1⟩, id := ⟨9⟩ }
        (feeding.connect ⟨9⟩ ⟨⟨1⟩, 0, ⟨2⟩, 1⟩).toRun ∧
      (feeding.connect ⟨9⟩ ⟨⟨1⟩, 0, ⟨2⟩, 1⟩).graph.inputValue? ⟨2⟩ 1 = some (.int 5) ∧
      ((feeding.connect ⟨9⟩ ⟨⟨1⟩, 0, ⟨2⟩, 1⟩).graph.disconnect ⟨9⟩).1.inputValue? ⟨2⟩ 1 =
        some (.int 0) := by
  have hunused : feeding.connection? ⟨9⟩ = none := by decide
  have hok : (feeding.connect ⟨9⟩ ⟨⟨1⟩, 0, ⟨2⟩, 1⟩).result = .ok ⟨9⟩ := by decide
  obtain ⟨-, hjoins, -, -⟩ := connect_pulls_and_is_undone hunused hok
  exact ⟨hunused, hok, hjoins, by decide, by decide⟩

end Graph

end FlowGraph
