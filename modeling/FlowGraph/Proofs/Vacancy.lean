import FlowGraph.Proofs.Operation
import FlowGraph.Proofs.Removal
import FlowGraph.Store.Lemmas
import Mathlib.Data.List.Forall2
import Mathlib.Data.List.Induction

/-!
# What a removal leaves behind

A removal takes connections out, and perhaps a node.  At every node that stays, the data
inputs into which a connection led before and none leads any more go back to their defaults,
in the order in which their connections were taken out.  Nothing else about the nodes
changes, and nodes and connections that stay keep their order.
-/

namespace FlowGraph

/-- The node with some of its inputs put back to their defaults, one after the other. -/
def Node.resetInputs (n : Node) (indices : List Nat) : Node := indices.foldl Node.resetInput n

namespace Graph

/-- A connection leads into an input of a node. -/
def Entered (g : Graph) (id : NodeId) (index : Nat) : Prop :=
  ∃ c ∈ g.connections.rows, c.target = id ∧ c.targetPin = index

instance (g : Graph) (id : NodeId) (index : Nat) : Decidable (g.Entered id index) :=
  inferInstanceAs (Decidable (∃ c ∈ g.connections.rows, _))

/-- A data input of a node that loses its last connection. -/
structure Vacated (g g' : Graph) (n : Node) (index : Nat) (pin : Pin) : Prop where
  input : n.input? index = some pin
  data : pin.isData = true
  before : g.Entered n.id index
  after : ¬ g'.Entered n.id index

/-- What becomes of a node that stays. -/
structure Relieved (g g' : Graph) (n n' : Node) : Prop where
  /-- Apart from its input slots the node is what it was. -/
  same : n' = { n with memory := { n.memory with inputs := n'.memory.inputs } }
  restored : ∀ index pin, g.Vacated g' n index pin → n'.memory.inputs.get? index = pin.default
  kept : ∀ index, (∀ pin, ¬ g.Vacated g' n index pin) →
    n'.memory.inputs.get? index = n.memory.inputs.get? index

/-- What is left of a graph when connections and nodes have been taken out. -/
structure Leaves (g : Graph) (taken : Connection → Bool) (gone : NodeId → Bool) (g' : Graph) :
    Prop where
  connections : g'.connections.rows = g.connections.rows.filter fun c => !taken c
  nodes : List.Forall₂ (g.Relieved g') (g.nodes.rows.filter fun n => !gone n.id) g'.nodes.rows
  name : g'.name = g.name
  settings : g'.settings = g.settings
  nextId : g'.nextId = g.nextId

/-- The inputs of a node from which the last connection is taken, in the order in which
their connections were inserted. -/
def vacancies (g : Graph) (taken : Connection → Bool) (id : NodeId) : List Nat :=
  ((g.connections.rows.filter taken).filter fun c =>
    c.target == id && !(g.without taken).isConnected id c.targetPin .input).map fun c => c.targetPin

end Graph

/-! ## Nodes -/

namespace Node

variable {n : Node} {index slot : Nat} {indices : List Nat} {pin : Pin}

theorem resetInput_of_data (hpin : n.input? index = some pin) (hdata : pin.isData = true) :
    (n.resetInput index).memory.inputs.get? index = pin.default := by
  simp only [resetInput, hpin, hdata, if_true]
  cases pin.default with
  | none => simp [clearInput]
  | some value => simp [setInput]

theorem resetInput_of_other (h : slot = index → ∀ pin ∈ n.input? index, pin.isData = false) :
    (n.resetInput index).memory.inputs.get? slot = n.memory.inputs.get? slot := by
  rw [resetInput]
  split
  next => rfl
  next pin hpin =>
    split
    next hdata =>
      have hne : slot ≠ index := by
        intro heq
        rw [h heq pin hpin] at hdata
        cases hdata
      split <;> simp [setInput, clearInput, hne]
    next => rfl

theorem resetInput_same (n : Node) (index : Nat) :
    n.resetInput index =
      { n with memory := { n.memory with inputs := (n.resetInput index).memory.inputs } } := by
  rw [resetInput]
  split
  · rfl
  · split
    · split <;> rfl
    · rfl

theorem resetInputs_same (n : Node) (indices : List Nat) :
    n.resetInputs indices =
      { n with memory := { n.memory with inputs := (n.resetInputs indices).memory.inputs } } := by
  induction indices generalizing n with
  | nil => rfl
  | cons index indices ih =>
    have hrest := ih (n.resetInput index)
    rw [resetInputs, List.foldl_cons, ← resetInputs, hrest, n.resetInput_same index]

theorem input?_resetInput (n : Node) (index slot : Nat) :
    (n.resetInput index).input? slot = n.input? slot := by
  rw [n.resetInput_same index]
  rfl

/-- A data input that is put back holds its default, whatever is put back after it. -/
theorem resetInputs_of_mem (hslot : slot ∈ indices) (hpin : n.input? slot = some pin)
    (hdata : pin.isData = true) :
    (n.resetInputs indices).memory.inputs.get? slot = pin.default := by
  induction indices using List.reverseRecOn with
  | nil => cases hslot
  | append_singleton indices index ih =>
    have hlast : n.resetInputs (indices ++ [index]) = (n.resetInputs indices).resetInput index :=
      List.foldl_append
    have hinputs : (n.resetInputs indices).input? = n.input? := by
      rw [n.resetInputs_same indices]
      rfl
    rw [hlast]
    by_cases heq : slot = index
    · subst heq
      exact resetInput_of_data ((congrFun hinputs slot).trans hpin) hdata
    · rw [resetInput_of_other fun h => absurd h heq]
      apply ih
      exact (List.mem_append.1 hslot).resolve_right fun h => heq (List.mem_singleton.1 h)

theorem resetInputs_of_other
    (h : slot ∈ indices → ∀ pin ∈ n.input? slot, pin.isData = false) :
    (n.resetInputs indices).memory.inputs.get? slot = n.memory.inputs.get? slot := by
  induction indices generalizing n with
  | nil => rfl
  | cons index indices ih =>
    rw [resetInputs, List.foldl_cons, ← resetInputs, ih, resetInput_of_other]
    · rintro rfl
      exact h List.mem_cons_self
    · intro hslot
      rw [input?_resetInput]
      exact h (List.mem_cons_of_mem index hslot)

end Node

/-! ## Graphs -/

namespace Graph

variable {g g' : Graph} {taken : Connection → Bool} {gone : NodeId → Bool} {id : NodeId}
  {index : Nat}

theorem isConnected_input_iff : g.isConnected id index .input = true ↔ g.Entered id index := by
  simp [isConnected, Link.touches, Link.enters, Entered]

theorem mem_vacancies_iff :
    index ∈ g.vacancies taken id ↔ g.Entered id index ∧ ¬ (g.without taken).Entered id index := by
  rw [← isConnected_input_iff (g := g.without taken), vacancies, List.mem_map]
  constructor
  · rintro ⟨c, hc, rfl⟩
    obtain ⟨htaken, hlast⟩ := List.mem_filter.1 hc
    rw [Bool.and_eq_true, beq_iff_eq, Bool.not_eq_true'] at hlast
    obtain ⟨rfl, hlast⟩ := hlast
    rw [hlast]
    exact ⟨⟨c, (List.mem_filter.1 htaken).1, rfl, rfl⟩, Bool.false_ne_true⟩
  · rintro ⟨⟨c, hc, rfl, rfl⟩, hlast⟩
    have htaken : taken c = true := by
      by_contra hkept
      have hleft : c ∈ (g.without taken).connections.rows :=
        List.mem_filter.2 ⟨hc, by simpa using hkept⟩
      exact hlast (isConnected_input_iff.2 ⟨c, hleft, rfl, rfl⟩)
    rw [Bool.not_eq_true] at hlast
    refine ⟨c, List.mem_filter.2 ⟨List.mem_filter.2 ⟨hc, htaken⟩, ?_⟩, rfl⟩
    rw [hlast, beq_self_eq_true]
    rfl

/-- Putting the vacancies back to their defaults is what a removal has to do. -/
theorem relieved_resetInputs (n : Node)
    (hconnections : g'.connections.rows = (g.without taken).connections.rows) :
    g.Relieved g' n (n.resetInputs (g.vacancies taken n.id)) := by
  have hentered : ∀ index, g'.Entered n.id index ↔ (g.without taken).Entered n.id index := by
    intro index
    rw [Entered, hconnections, Entered]
  constructor
  · exact n.resetInputs_same _
  · intro index pin hvacated
    apply Node.resetInputs_of_mem _ hvacated.input hvacated.data
    exact mem_vacancies_iff.2 ⟨hvacated.before, mt (hentered index).2 hvacated.after⟩
  · intro index hkept
    apply Node.resetInputs_of_other
    intro hvacant pin hpin
    obtain ⟨hbefore, hafter⟩ := mem_vacancies_iff.1 hvacant
    rw [← Bool.not_eq_true]
    intro hdata
    exact hkept pin ⟨hpin, hdata, hbefore, mt (hentered index).1 hafter⟩

theorem leaves_of_rows (hconnections : g'.connections.rows = (g.without taken).connections.rows)
    (hnodes : g'.nodes.rows = (g.nodes.rows.filter fun n => !gone n.id).map fun n =>
      n.resetInputs (g.vacancies taken n.id))
    (hname : g'.name = g.name) (hsettings : g'.settings = g.settings)
    (hnext : g'.nextId = g.nextId) : g.Leaves taken gone g' where
  connections := hconnections
  nodes := by
    rw [hnodes, List.forall₂_map_right_iff]
    exact List.forall₂_same.2 fun n _ => relieved_resetInputs n hconnections
  name := hname
  settings := hsettings
  nextId := hnext

theorem Relieved.id_eq {n n' : Node} (h : g.Relieved g' n n') : n'.id = n.id := by
  rw [h.same]

/-- Every node that is left is a node from before, relieved. -/
theorem Leaves.exists_node? (h : g.Leaves taken gone g') {n' : Node}
    (hn' : g'.node? id = some n') : ∃ n, g.node? id = some n ∧ g.Relieved g' n n' := by
  obtain ⟨i, hi, hrow⟩ := List.getElem_of_mem (Table.mem_of_find? hn')
  have hrelieved := List.Forall₂.get h.nodes (h.nodes.length_eq.symm ▸ hi) hi
  have hget : g'.nodes.rows.get ⟨i, hi⟩ = n' := hrow
  rw [hget] at hrelieved
  refine ⟨_, ?_, hrelieved⟩
  rw [← Table.key_of_find? hn', hrelieved.id_eq]
  exact Table.find?_key_iff.2 (List.mem_of_mem_filter (List.getElem_mem _))

theorem Leaves.nodeIds (h : g.Leaves taken gone g') :
    g'.nodeIds = g.nodeIds.filter fun id => !gone id := by
  have hids : List.Forall₂ (fun n n' : Node => n.id = n'.id)
      (g.nodes.rows.filter fun n => !gone n.id) g'.nodes.rows :=
    h.nodes.imp fun _ _ hrelieved => hrelieved.id_eq.symm
  have hmap :
      (g.nodes.rows.filter fun n => !gone n.id).map Node.id = g'.nodes.rows.map Node.id := by
    rw [← List.forall₂_eq_eq_eq, List.forall₂_map_left_iff, List.forall₂_map_right_iff]
    exact hids
  rw [Graph.nodeIds, Table.keys, ← hmap, Graph.nodeIds, Table.keys, List.filter_map]
  rfl

/-! ## Removals -/

theorem isConnected_vacate (g : Graph) (l : Link) : (g.vacate l).isConnected = g.isConnected := by
  funext id index side
  rw [isConnected, connections_eq_of_skeleton (skeleton_vacate g l), isConnected]

/-- What vacating the input at the end of a removed connection does to the nodes. -/
theorem rows_vacate (g : Graph) (c : Connection) :
    (g.vacate c.toLink).nodes.rows = g.nodes.rows.map fun n =>
      n.resetInputs (([c].filter fun c =>
        c.target == n.id && !g.isConnected n.id c.targetPin .input).map fun c => c.targetPin) := by
  rw [vacate]
  split
  next hconnected =>
    refine (List.map_id' _).symm.trans (List.map_congr_left fun n _ => ?_)
    have hnone : (c.target == n.id && !g.isConnected n.id c.targetPin .input) = false := by
      cases htarget : c.target == n.id with
      | false => rfl
      | true => rw [← beq_iff_eq.1 htarget, hconnected]; rfl
    rw [List.filter_singleton, hnone]
    rfl
  next hconnected =>
    apply List.map_congr_left
    intro n _
    rw [List.filter_singleton]
    by_cases hn : n.id = c.target
    · rw [if_pos hn, hn, beq_self_eq_true, Bool.eq_false_iff.2 hconnected]
      rfl
    · rw [if_neg hn, beq_eq_false_iff_ne.2 (Ne.symm hn)]
      rfl

/-- Vacating one input after the other puts, at each node, all of its inputs back that are
not connected. -/
theorem rows_foldl_vacate (g : Graph) (removed : List Connection) :
    (removed.foldl (fun g c => g.vacate c.toLink) g).nodes.rows = g.nodes.rows.map fun n =>
      n.resetInputs ((removed.filter fun c =>
        c.target == n.id && !g.isConnected n.id c.targetPin .input).map fun c => c.targetPin) := by
  induction removed generalizing g with
  | nil => exact (List.map_id' _).symm
  | cons c removed ih =>
    rw [List.foldl_cons, ih, isConnected_vacate, rows_vacate, List.map_map]
    apply List.map_congr_left
    intro n _
    have hid : ∀ indices, (n.resetInputs indices).id = n.id := by
      intro indices
      rw [n.resetInputs_same indices]
    rw [Function.comp_apply, hid, List.filter_singleton]
    cases hvacant : c.target == n.id && !g.isConnected n.id c.targetPin .input with
    | false => simp only [List.filter_cons, hvacant]; rfl
    | true => simp only [List.filter_cons, hvacant]; rfl

theorem graph_foldl_vacate (r : Run) (removed : List Connection) :
    (removed.foldl Run.vacate r).graph = removed.foldl (fun g c => g.vacate c.toLink) r.graph := by
  induction removed generalizing r with
  | nil => rfl
  | cons c removed ih => exact ih (r.vacate c)

theorem map_resetInputs_eq_self (hnone : g.connections.rows.filter taken = []) :
    (g.nodes.rows.map fun n => n.resetInputs (g.vacancies taken n.id)) = g.nodes.rows := by
  have hkept : ∀ id, g.vacancies taken id = [] := by
    intro id
    rw [vacancies, hnone]
    rfl
  simp only [hkept]
  exact List.map_id' _

theorem rows_nodes_disconnectWhere (g : Graph) (taken : Connection → Bool) :
    (g.disconnectWhere taken).graph.nodes.rows = g.nodes.rows.map fun n =>
      n.resetInputs (g.vacancies taken n.id) := by
  rw [disconnectWhere]
  dsimp only
  split
  next hnone => exact (map_resetInputs_eq_self (List.isEmpty_iff.1 hnone)).symm
  next =>
    let rest : Graph := { g.without taken with knownOrder := none }
    have hrows := rows_foldl_vacate rest (g.connections.rows.filter taken)
    rw [← graph_foldl_vacate { graph := rest }] at hrows
    exact hrows

theorem rows_nodes_disconnect (g : Graph) (id : ConnectionId) :
    (g.disconnect id).1.nodes.rows = g.nodes.rows.map fun n =>
      n.resetInputs (g.vacancies (fun c => c.id = id) n.id) := by
  have htaken : g.connections.rows.filter (fun c => c.id = id) = (g.connection? id).toList :=
    g.connections.filter_key_eq_toList id
  rw [disconnect]
  split
  next hnone =>
    rw [hnone] at htaken
    exact (map_resetInputs_eq_self htaken).symm
  next c hc =>
    have hrest : g.connections.erase id = (g.without fun c => c.id = id).connections := by
      rw [Table.erase, without]
      congr 1
      funext c
      exact decide_not
    rw [hc] at htaken
    rw [hrest, rows_vacate]
    simp only [vacancies, htaken]
    rfl

/-- A removal of connections alone. -/
theorem leaves_of_skeleton (hskeleton : g'.skeleton = (g.without taken).skeleton)
    (hnodes : g'.nodes.rows = g.nodes.rows.map fun n =>
      n.resetInputs (g.vacancies taken n.id)) : g.Leaves taken (fun _ => false) g' := by
  have hall : g.nodes.rows.filter (fun _ => !false) = g.nodes.rows :=
    List.filter_eq_self.2 fun _ _ => rfl
  apply leaves_of_rows
  · rw [connections_eq_of_skeleton hskeleton]
  · rw [hnodes, hall]
  · exact (congrArg Graph.name hskeleton :)
  · exact (congrArg Graph.settings hskeleton :)
  · exact (nextId_eq_of_skeleton hskeleton :)

/-- Whatever connections are chosen, their removal takes these out and leaves the rest. -/
theorem leaves_disconnectWhere (g : Graph) (taken : Connection → Bool) :
    g.Leaves taken (fun _ => false) (g.disconnectWhere taken).graph :=
  leaves_of_skeleton (skeleton_disconnectWhere g taken) (rows_nodes_disconnectWhere g taken)

theorem leaves_disconnect (g : Graph) (id : ConnectionId) :
    g.Leaves (fun c => c.id = id) (fun _ => false) (g.disconnect id).1 :=
  leaves_of_skeleton (skeleton_disconnect g id) (rows_nodes_disconnect g id)

/-- With a node go the connections that have it as one of their ends. -/
theorem leaves_removeNode (hlive : g.hasNode id = true) :
    g.Leaves (fun c => c.involves id) (fun node => node = id) (g.removeNode id).graph := by
  have hskeleton := skeleton_disconnectWhere g fun c => c.involves id
  rw [removeNode, if_pos hlive]
  apply leaves_of_rows
  · exact rows_disconnectWhere g _
  · have herase : (g.disconnectNode id).graph.nodes.rows.filter (fun n => n.id ≠ id) =
        (g.nodes.rows.filter fun n => !decide (n.id = id)).map fun n =>
          n.resetInputs (g.vacancies (fun c => c.involves id) n.id) := by
      rw [disconnectNode, rows_nodes_disconnectWhere, List.filter_map]
      congr 1
      apply List.filter_congr
      intro n _
      rw [Function.comp_apply, n.resetInputs_same]
      exact decide_not
    exact herase
  · exact (congrArg Graph.name hskeleton :)
  · exact (congrArg Graph.settings hskeleton :)
  · exact (nextId_eq_of_skeleton hskeleton :)

theorem result_disconnectWhere (g : Graph) (taken : Connection → Bool) :
    (g.disconnectWhere taken).result = g.connections.rows.countP taken := by
  rw [disconnectWhere, List.countP_eq_length_filter]
  dsimp only
  split
  next hnone => rw [List.isEmpty_iff.1 hnone]; rfl
  next => rfl

theorem result_disconnect (g : Graph) (id : ConnectionId) :
    (g.disconnect id).2 = g.connection? id := by
  rw [disconnect]
  split
  next hnone => exact hnone.symm
  next hc => exact hc.symm

/-- Whichever way connections are taken out of a graph, well formed or not, exactly those
that are meant go.  At the nodes that stay, the data inputs that lose their last connection
hold their defaults again, and nothing else changes.  A node that is removed takes the
connections with it that name it.  To remove a node that does not exist changes nothing,
not even if connections name it. -/
theorem removals_exact (g : Graph) :
    (∀ id, g.Leaves (fun c => c.id = id) (fun _ => false) (g.disconnect id).1 ∧
      (g.disconnect id).2 = g.connection? id) ∧
    (∀ node index side, g.Leaves (fun c => c.touches node index side) (fun _ => false)
        (g.disconnectPin node index side).graph ∧
      (g.disconnectPin node index side).result =
        g.connections.rows.countP fun c => c.touches node index side) ∧
    (∀ node, g.Leaves (fun c => c.involves node) (fun _ => false) (g.disconnectNode node).graph ∧
      (g.disconnectNode node).result = g.connections.rows.countP fun c => c.involves node) ∧
    (∀ node, g.hasNode node = true →
      g.Leaves (fun c => c.involves node) (fun id => id = node) (g.removeNode node).graph ∧
      ∀ c ∈ (g.removeNode node).graph.connections.rows, c.involves node = false) ∧
    ∀ node, g.hasNode node = false → (g.removeNode node).graph = g := by
  refine ⟨?_, ?_, ?_, ?_, ?_⟩
  · intro id
    exact ⟨leaves_disconnect g id, result_disconnect g id⟩
  · intro node index side
    exact ⟨leaves_disconnectWhere g _, result_disconnectWhere g _⟩
  · intro node
    exact ⟨leaves_disconnectWhere g _, result_disconnectWhere g _⟩
  · intro node hlive
    have hleaves := leaves_removeNode hlive
    refine ⟨hleaves, ?_⟩
    intro c hc
    rw [hleaves.connections] at hc
    simpa using (List.mem_filter.1 hc).2
  · intro node hmissing
    rw [removeNode, if_neg (ne_true_of_eq_false hmissing)]

theorem removals_exact_tangled :
    (∀ c ∈ (tangled.removeNode ⟨1⟩).graph.connections.rows, c.involves ⟨1⟩ = false) ∧
      (tangled.removeNode ⟨1⟩).graph.nodeIds = [⟨0⟩, ⟨2⟩] ∧
      (tangled.removeNode ⟨9⟩).graph = tangled := by
  obtain ⟨-, -, -, hlive, hmissing⟩ := removals_exact tangled
  exact ⟨(hlive ⟨1⟩ (by decide)).2, by decide, hmissing ⟨9⟩ (by decide)⟩

/-- A connection that names a node which does not exist is not taken out with that node. -/
theorem removeNode_keeps_dangling :
    ∃ c ∈ (tangled.removeNode ⟨9⟩).graph.connections.rows, c.involves ⟨9⟩ = true := by
  decide

end Graph

end FlowGraph
