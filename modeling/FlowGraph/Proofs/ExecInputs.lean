import FlowGraph.Node.Lemmas
import FlowGraph.Proofs.Changes
import FlowGraph.Proofs.Cleanup

/-!
# Exec inputs hold no values

A value gets under the index of an input when the host or a behavior puts it there, or by a
copy along a connection that starts at a data output.  What such a connection leads to is
not looked at, so that one which was restored unchecked brings values into an exec input.
Where none does, an exec input holds nothing, whatever is done to the graph.
-/

namespace FlowGraph

namespace Graph

/-- A live node has an exec input at an index. -/
def ExecInput (g : Graph) (id : NodeId) (index : Nat) : Prop :=
  ∃ n ∈ g.node? id, ∃ pin ∈ n.input? index, pin.isExec = true

/-- A connection leads from a data output to an index on the input side of a node. -/
def Supplied (g : Graph) (id : NodeId) (index : Nat) : Prop :=
  ∃ c ∈ g.connections.rows, g.carriesData c.toLink = true ∧ c.target = id ∧ c.targetPin = index

instance (g : Graph) (id : NodeId) (index : Nat) : Decidable (g.ExecInput id index) :=
  inferInstanceAs (Decidable (∃ n ∈ g.node? id, ∃ pin ∈ n.input? index, pin.isExec = true))

instance (g : Graph) (id : NodeId) (index : Nat) : Decidable (g.Supplied id index) :=
  inferInstanceAs (Decidable (∃ c ∈ g.connections.rows, _))

/-- If there is an exec input at this place, it holds nothing. -/
def ExecInputEmpty (g : Graph) (id : NodeId) (index : Nat) : Prop :=
  g.ExecInput id index → g.inputValue? id index = none

end Graph

namespace Operation

/-- A call that writes no input itself, and after which no behavior does so. -/
structure Unwritten (g : Graph) (operation : Operation) : Prop where
  host : ∀ id index value, operation ≠ .setInput id index value
  behavior : ∀ id m, ((operation.apply g).react id m).inputs = m.inputs

/-- Such a call after which no connection brings a value to one input, should it be an
exec input. -/
structure Spares (id : NodeId) (index : Nat) (g : Graph) (operation : Operation) : Prop
    extends Unwritten g operation where
  unsupplied : (operation.apply g).ExecInput id index → ¬ (operation.apply g).Supplied id index

end Operation

namespace Graph

variable {g g' : Graph} {id : NodeId} {index : Nat} {may : Deed → Prop}

/-! ## What the skeleton decides -/

theorem execInput_congr
    (h : (g.node? id).map Node.inputs = (g'.node? id).map Node.inputs) :
    g.ExecInput id index ↔ g'.ExecInput id index := by
  have hread : ∀ g : Graph, g.ExecInput id index ↔
      ∃ pin ∈ ((g.node? id).map Node.inputs).bind (·[index]?), pin.isExec = true := by
    intro g
    rw [ExecInput]
    cases g.node? id <;> simp [Node.input?]
  rw [hread, h, ← hread]

theorem execInput_of_skeleton (h : g.skeleton = g'.skeleton) :
    g.ExecInput id index ↔ g'.ExecInput id index :=
  execInput_congr (map_node?_of_skeleton Node.inputs (fun _ => rfl) h id)

theorem supplied_of_skeleton (h : g.skeleton = g'.skeleton) :
    g.Supplied id index ↔ g'.Supplied id index := by
  simp only [Supplied, connections_eq_of_skeleton h, carriesData_of_skeleton h]

/-! ## Small changes -/

/-- A small change does not touch an input whose node does not write it and into which no
data comes. -/
theorem Change.inputValue?_eq (h : Change may g g')
    (hkeeps : ∀ m, (g.react id m).inputs.get? index = m.inputs.get? index)
    (hfree : ¬ g.Supplied id index) :
    g'.inputValue? id index = g.inputValue? id index := by
  cases h with
  | invoke r =>
    rw [inputValue?, Run.memory?_invoke]
    split
    next hid =>
      subst hid
      simp only [inputValue?, Option.bind_map, Function.comp_def, hkeeps]
    next => rfl
  | copy r hstored hdata =>
    rename_i c
    rw [inputValue?, Run.memory?_copy]
    split
    next hid =>
      have hindex : index ≠ c.targetPin := by
        intro heq
        exact hfree ⟨c, hstored, hdata, hid.symm, heq.symm⟩
      simp only [inputValue?, Option.bind_map, Function.comp_def, Memory.get?_receive, hindex,
        if_false]
    next => rfl
  | put =>
    rw [inputValue?, memory?_setOutput]
    split
    · rw [Option.bind_map]
      rfl
    · rfl
  | mark =>
    rw [inputValue?, memory?_setActive]
    rfl
  | know => rfl

theorem Changes.inputValue?_eq (h : Changes may g g')
    (hkeeps : ∀ m, (g.react id m).inputs.get? index = m.inputs.get? index)
    (hfree : ¬ g.Supplied id index) :
    g'.inputValue? id index = g.inputValue? id index := by
  apply h.invariant (P := fun g' => g'.inputValue? id index = g.inputValue? id index) _ rfl
  intro g₁ g₂ hskeleton hchange hvalue
  rw [hchange.inputValue?_eq _ _, hvalue]
  · intro m
    rw [react_of_skeleton hskeleton]
    exact hkeeps m
  · rw [supplied_of_skeleton hskeleton]
    exact hfree

/-- Refreshing and executing leave an empty exec input empty. -/
theorem ExecInputEmpty.of_changes (h : g.ExecInputEmpty id index) (hchanges : Changes may g g')
    (hkeeps : ∀ m, (g'.react id m).inputs = m.inputs)
    (hfree : g'.ExecInput id index → ¬ g'.Supplied id index) : g'.ExecInputEmpty id index := by
  have hskeleton := hchanges.skeleton
  intro hexec
  have hkeeps' : ∀ m, (g.react id m).inputs.get? index = m.inputs.get? index := by
    intro m
    rw [← react_of_skeleton hskeleton, hkeeps m]
  have hfree' : ¬ g.Supplied id index := by
    rw [← supplied_of_skeleton hskeleton]
    exact hfree hexec
  rw [hchanges.inputValue?_eq hkeeps' hfree']
  exact h ((execInput_of_skeleton hskeleton).1 hexec)

/-! ## Nodes -/

/-- An exec input stays empty if its node keeps its inputs and what is held there. -/
theorem ExecInputEmpty.congr (h : g.ExecInputEmpty id index)
    (hinputs : (g'.node? id).map Node.inputs = (g.node? id).map Node.inputs)
    (hvalue : g'.inputValue? id index = g.inputValue? id index) : g'.ExecInputEmpty id index := by
  intro hexec
  rw [hvalue]
  exact h ((execInput_congr hinputs).1 hexec)

theorem ExecInputEmpty.modify (h : g.ExecInputEmpty id index) (other : NodeId) (f : Node → Node)
    (hid : ∀ n, (f n).id = n.id) (hinputs : ∀ n, (f n).inputs = n.inputs)
    (hmemory : ∀ n, (f n).memory = n.memory) :
    { g with nodes := g.nodes.modify other f hid }.ExecInputEmpty id index := by
  have hfind : (g.nodes.modify other f hid).find? id =
      if id = other then (g.node? id).map f else g.node? id :=
    Table.find?_modify g.nodes other id f hid
  apply h.congr
  · rw [node?, hfind]
    split
    · simp only [Option.map_map, Function.comp_def, hinputs]
    · rfl
  · rw [inputValue?, memory?_modify g other id f (fun m => m) hid hmemory, Option.map_id', ite_self,
      inputValue?]

theorem ExecInputEmpty.setInput (h : g.ExecInputEmpty id index) {other : NodeId} {slot : Nat}
    {value : Value} (hother : ¬ (other = id ∧ slot = index)) :
    (g.setInput other slot value).ExecInputEmpty id index := by
  apply h.congr
  · exact map_node?_of_skeleton Node.inputs (fun _ => rfl) (skeleton_setInput g other slot value) id
  · rw [inputValue?, memory?_setInput]
    split
    next hid =>
      have hslot : index ≠ slot := fun heq => hother ⟨hid.symm, heq.symm⟩
      simp only [inputValue?, Option.bind_map, Function.comp_def, Store.get?_set, hslot, if_false]
    next => rfl

end Graph

/-- A declaration puts no values on exec pins. -/
theorem Node.get?_initialValues_of_exec {specs : List PinSpec} {spec : PinSpec} {index : Nat}
    (hspec : specs[index]? = some spec) (hexec : spec.cls = .exec) :
    (Node.initialValues specs).get? index = none := by
  rw [Option.eq_none_iff_forall_ne_some]
  intro value hvalue
  obtain ⟨declared, hdeclared, hdata, -⟩ := Node.get?_initialValues.1 hvalue
  cases hspec.symm.trans hdeclared
  rw [hexec] at hdata
  cases hdata

theorem Node.get?_build_of_exec {id : NodeId} {spec : NodeSpec} {index : Nat} {pin : Pin}
    (hpin : (Node.build id spec).input? index = some pin) (hexec : pin.isExec = true) :
    (Node.build id spec).memory.inputs.get? index = none := by
  have hpins : (spec.inputs.mapIdx fun index spec => Pin.ofSpec index .input spec)[index]? =
      some pin := hpin
  rw [List.getElem?_mapIdx] at hpins
  obtain ⟨pinSpec, hspec, rfl⟩ := Option.map_eq_some_iff.1 hpins
  exact Node.get?_initialValues_of_exec hspec (beq_iff_eq.1 hexec)

namespace Graph

variable {g g' : Graph} {id : NodeId} {index : Nat}

theorem ExecInputEmpty.addNode (h : g.ExecInputEmpty id index) (spec : NodeSpec) :
    (g.addNode spec).graph.ExecInputEmpty id index := by
  rw [Graph.addNode]
  dsimp only
  split
  next => exact h
  next node hnode =>
    have hbuild := Node.eq_build_of_ofSpec hnode
    have hfind : (g.nodes.put node).find? id = if id = node.id then some node else g.node? id :=
      Table.find?_put g.nodes node id
    by_cases hnew : id = node.id
    · rw [if_pos hnew] at hfind
      rintro ⟨n, hn, pin, hpin, hexec⟩
      cases hfind.symm.trans hn
      rw [inputValue?, memory?, node?, hfind, Option.map_some, Option.bind_some]
      rw [hbuild] at hpin ⊢
      exact Node.get?_build_of_exec hpin hexec
    · rw [if_neg hnew] at hfind
      apply h.congr
      · rw [node?, hfind]
      · rw [inputValue?, memory?, node?, hfind]
        rfl

/-! ## Removals -/

/-- Removals put defaults into data inputs only. -/
theorem ExecInputEmpty.of_leaves {taken : Connection → Bool} {gone : NodeId → Bool}
    (h : g.ExecInputEmpty id index) (hleaves : g.Leaves taken gone g') :
    g'.ExecInputEmpty id index := by
  rintro ⟨n', hn', pin, hpin, hexec⟩
  obtain ⟨n, hfind, hrelieved⟩ := hleaves.exists_node? hn'
  have hinputs : n'.inputs = n.inputs := by rw [hrelieved.same]
  have hpin' : n.input? index = some pin := by
    rw [Node.input?, ← hinputs]
    exact hpin
  have hkept : n'.memory.inputs.get? index = n.memory.inputs.get? index := by
    apply hrelieved.kept
    intro other hvacated
    cases hpin'.symm.trans hvacated.input
    have hdata := hvacated.data
    rw [Pin.isExec, beq_iff_eq] at hexec
    rw [Pin.isData, beq_iff_eq, hexec] at hdata
    cases hdata
  have hempty : g.inputValue? id index = none := h ⟨n, hfind, pin, hpin', hexec⟩
  rw [inputValue?, memory?, hfind] at hempty
  rw [inputValue?, memory?, Option.mem_def.1 hn']
  exact hkept.trans hempty

/-! ## Runs of operations -/

/-- A link that is let in is stored, and then its connection is refreshed. -/
theorem changes_connect {l : Link} (connection : ConnectionId) (h : g.check l = .ok ()) :
    Changes (fun _ => True) (g.restore { toLink := l, id := connection })
      (g.connect connection l).graph := by
  rw [connect, h]
  exact Run.changes_refreshConnection (r := { graph := g.restore _, journal := _ })
    (fun _ _ _ => trivial) connection

/-- One step: an empty exec input stays empty. -/
theorem ExecInputEmpty.apply (h : g.ExecInputEmpty id index) {operation : Operation}
    (hspares : operation.Spares id index g) : (operation.apply g).ExecInputEmpty id index := by
  have hpropagate : Changes (fun _ => True) g (operation.apply g) →
      (operation.apply g).ExecInputEmpty id index :=
    fun hchanges => h.of_changes hchanges (hspares.behavior id) hspares.unsupplied
  have hany : ∀ id, g.isPure id = true → g.feedsData id = true → True := fun _ _ _ => trivial
  cases operation with
  | addNode spec => exact h.addNode spec
  | spawn catalog key =>
    rw [Operation.apply, Catalog.spawn]
    split
    · exact h
    · exact h.addNode _
  | connect connection l =>
    have hstored : (g.restore { toLink := l, id := connection }).ExecInputEmpty id index := h
    cases hcheck : g.check l with
    | error refusal =>
      rw [Operation.apply, (connect_of_refused connection hcheck).1]
      exact h
    | ok =>
      exact hstored.of_changes (changes_connect connection hcheck) (hspares.behavior id)
        hspares.unsupplied
  | restore c => exact h
  | disconnect connection => exact h.of_leaves (leaves_disconnect g connection)
  | disconnectNode node => exact h.of_leaves (leaves_disconnectWhere g _)
  | disconnectPin node pin side => exact h.of_leaves (leaves_disconnectWhere g _)
  | removeNode node =>
    cases hlive : g.hasNode node with
    | true => exact h.of_leaves (leaves_removeNode hlive)
    | false =>
      rw [Operation.apply, removeNode, if_neg (ne_true_of_eq_false hlive)]
      exact h
  | validate => exact h
  | cleanup => exact h.of_leaves (leaves_cleanup g)
  | knowOrder => exact hpropagate (changes_knowOrder g)
  | refreshPure => exact hpropagate (changes_sweep hany true)
  | refreshAll => exact hpropagate (changes_sweep hany false)
  | refreshConnection connection =>
    exact hpropagate (Run.changes_refreshConnection (r := { graph := g }) hany connection)
  | refreshInputs node =>
    exact hpropagate (Run.changes_refreshInputs { graph := g } fun _ _ _ _ => trivial)
  | perform command => exact hpropagate (changes_perform g command)
  | execute start => exact hpropagate (changes_execute g start)
  | fire title => exact hpropagate (changes_fire g title)
  | fireStart => exact hpropagate (changes_fire g _)
  | fireTick => exact hpropagate (changes_fire g _)
  | rename name => exact h
  | setSettings settings => exact h
  | setTitle node title => exact h.modify node _ _ (fun _ => rfl) fun _ => rfl
  | setCategory node category => exact h.modify node _ _ (fun _ => rfl) fun _ => rfl
  | setInput node slot value =>
    apply h.setInput
    rintro ⟨rfl, rfl⟩
    exact hspares.host _ _ value rfl
  | setOutput node slot value =>
    exact hpropagate (.single (.put g slot value trivial))
  | invoke node =>
    exact hpropagate (.single (.invoke { graph := g } trivial))

/-- Whatever is done to an empty graph, connections stored unchecked included: as long as
neither the host nor a behavior writes inputs, an exec input holds no value unless some
connection leads into it from a data output. -/
theorem execInputEmpty_of_reachable (h : Reachable (Operation.Spares id index) g) :
    g.ExecInputEmpty id index := by
  induction h with
  | empty name settings =>
    rintro ⟨n, hn, -⟩
    cases hn
  | step operation _ hspares ih => exact ih.apply hspares

/-- A graph to look at: a connection has been restored that leads from a number to the
first of two exec inputs, and all values have been refreshed. -/
def crossed : Graph :=
  [.addNode { title := "Number", outputs := [.data "Value" (.int 5)] },
    .addNode { title := "Act", inputs := [.exec "Run", .exec "Reset"] },
    .restore ⟨⟨⟨0⟩, 0, ⟨1⟩, 0⟩, ⟨0⟩⟩,
    .refreshAll].foldl Operation.apply {}

theorem reachable_crossed : Reachable (Operation.Spares ⟨1⟩ 1) crossed := by
  have hspares : ∀ (g : Graph) (operation : Operation),
      (∀ id index value, operation ≠ .setInput id index value) →
      (∀ n ∈ (operation.apply g).nodes.rows, n.behavior = none) →
      ¬ (operation.apply g).Supplied ⟨1⟩ 1 → operation.Spares ⟨1⟩ 1 g := by
    intro g operation hhost hbehavior hfree
    refine ⟨⟨hhost, ?_⟩, fun _ => hfree⟩
    intro id m
    rw [react_of_no_behavior fun n hn => hbehavior n (Table.mem_of_find? hn)]
  apply Reachable.step .refreshAll _ (hspares _ _ nofun (by decide) (by decide))
  apply Reachable.step (.restore ⟨⟨⟨0⟩, 0, ⟨1⟩, 0⟩, ⟨0⟩⟩) _
    (hspares _ _ nofun (by decide) (by decide))
  apply Reachable.step (.addNode { title := "Act", inputs := [.exec "Run", .exec "Reset"] }) _
    (hspares _ _ nofun (by decide) (by decide))
  apply Reachable.step (.addNode { title := "Number", outputs := [.data "Value" (.int 5)] }) _
    (hspares _ _ nofun (by decide) (by decide))
  exact Reachable.empty _ _

theorem execInputEmpty_of_reachable_crossed :
    Reachable (Operation.Spares ⟨1⟩ 1) crossed ∧ crossed.ExecInput ⟨1⟩ 1 ∧
      crossed.inputValue? ⟨1⟩ 1 = none := by
  have hexec : crossed.ExecInput ⟨1⟩ 1 := by decide
  exact ⟨reachable_crossed, hexec, execInputEmpty_of_reachable reachable_crossed hexec⟩

/-- A connection from a data output brings a value into an exec input. -/
theorem execInput_filled_crossed :
    Reachable Operation.Unwritten crossed ∧ crossed.ExecInput ⟨1⟩ 0 ∧
      crossed.inputValue? ⟨1⟩ 0 = some (.int 5) :=
  ⟨reachable_crossed.mono fun _ _ h => h.toUnwritten, by decide, by decide⟩

end Graph

end FlowGraph
