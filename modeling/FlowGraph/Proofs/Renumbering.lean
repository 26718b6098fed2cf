import FlowGraph.Proofs.Operation
import Mathlib.Logic.Equiv.Basic

/-!
# Other numbers for nodes

The nodes of a graph can be given other ids, and all that refers to a node its new id.  A
behavior is still told the id that it has always been told.  Then everything that is looked up
in the graph is found again under the new ids, and a change under the new ids is the change
that it was under the old ones.
-/

namespace FlowGraph

/-! ## What refers to nodes -/

section

variable (ρ : Equiv.Perm NodeId)

/-- The behavior of a node that has been given another id. -/
def Behavior.renumber (behavior : Behavior) : Behavior := fun id => behavior (ρ.symm id)

def Node.renumber (n : Node) : Node :=
  { n with id := ρ n.id, behavior := n.behavior.map (Behavior.renumber ρ) }

theorem Node.id_renumber (n : Node) : (n.renumber ρ).id = ρ n.id := rfl

def NodeSpec.renumber (spec : NodeSpec) : NodeSpec :=
  { spec with behavior := spec.behavior.map (Behavior.renumber ρ) }

def Template.renumber (t : Template) : Template :=
  { t with behavior := t.behavior.map (Behavior.renumber ρ) }

def Catalog.renumber (c : Catalog) : Catalog :=
  ⟨c.templates.map (Template.renumber ρ) fun _ => rfl⟩

def Link.renumber (l : Link) : Link := { l with source := ρ l.source, target := ρ l.target }

def Connection.renumber (c : Connection) : Connection := { c with toLink := c.toLink.renumber ρ }

@[simp]
theorem Link.source_renumber (l : Link) : (l.renumber ρ).source = ρ l.source := rfl

@[simp]
theorem Link.target_renumber (l : Link) : (l.renumber ρ).target = ρ l.target := rfl

@[simp]
theorem Link.sourcePin_renumber (l : Link) : (l.renumber ρ).sourcePin = l.sourcePin := rfl

@[simp]
theorem Link.targetPin_renumber (l : Link) : (l.renumber ρ).targetPin = l.targetPin := rfl

@[simp]
theorem Connection.toLink_renumber (c : Connection) :
    (c.renumber ρ).toLink = c.toLink.renumber ρ := rfl

theorem Connection.id_renumber (c : Connection) : (c.renumber ρ).id = Equiv.refl _ c.id := rfl

def Refusal.renumber : Refusal → Refusal
  | noNode node => noNode (ρ node)
  | noOutput node pin => noOutput (ρ node) pin
  | noInput node pin => noInput (ρ node) pin
  | classMismatch source target => classMismatch source target
  | selfLoop => selfLoop
  | occupied node pin => occupied (ρ node) pin
  | closesCycle source target => closesCycle (ρ source) (ρ target)

def ExecutionError.renumber : ExecutionError → ExecutionError
  | noNode node => noNode (ρ node)
  | endless start => endless (ρ start)

def Violation.renumber : Violation → Violation
  | noNode c node => noNode c (ρ node)
  | noOutput c node pin => noOutput c (ρ node) pin
  | noInput c node pin => noInput c (ρ node) pin
  | classMismatch c => classMismatch c
  | occupied c node pin => occupied c (ρ node) pin
  | closesCycle c => closesCycle c

def Event.renumber : Event → Event
  | nodeAdded node title inputs outputs => nodeAdded (ρ node) title inputs outputs
  | refused link error => refused (link.renumber ρ) (error.renumber ρ)
  | connected link => connected (link.renumber ρ)
  | disconnected link => disconnected (link.renumber ρ)
  | nodeRemoved node connections => nodeRemoved (ρ node) connections
  | dataOrdered nodes => dataOrdered nodes
  | swept stats pureOnly => swept stats pureOnly
  | nothingToExecute title => nothingToExecute title
  | executing start => executing (ρ start)
  | looping node first limit => looping (ρ node) first limit
  | violationFound violation => violationFound (violation.renumber ρ)
  | nothingToClean => nothingToClean
  | cleaned connections => cleaned connections
  | printed node text => printed (ρ node) text
  | noted node line => noted (ρ node) line
  | invoked node => invoked (ρ node)
  | copied connection => copied connection

end

/-- A table with other rows, which have other keys. -/
def Table.rekey {α κ : Type} {key : α → κ} (t : Table key) (f : α → α) (ρ : Equiv.Perm κ)
    (hkey : ∀ a, key (f a) = ρ (key a)) : Table key where
  rows := t.rows.map f
  distinct := List.pairwise_map.2 <| t.distinct.imp fun hne => by
    rw [hkey, hkey]
    exact ρ.injective.ne hne

/-- The graph with other ids for its nodes, and with the number of the next id. -/
def Graph.renumber (ρ : Equiv.Perm NodeId) (next : Nat) (g : Graph) : Graph where
  name := g.name
  settings := g.settings
  nextId := next
  nodes := g.nodes.rekey (Node.renumber ρ) ρ (Node.id_renumber ρ)
  connections := g.connections.rekey (Connection.renumber ρ) (.refl _) (Connection.id_renumber ρ)
  knownOrder := g.knownOrder.map (List.map ρ)

def Run.renumber (ρ : Equiv.Perm NodeId) (next : Nat) (r : Run) : Run where
  graph := r.graph.renumber ρ next
  journal := r.journal.map (Event.renumber ρ)

/-- The outcome with other ids for the nodes, where the answer is changed as it is given. -/
def Outcome.renumber {α β : Type} (ρ : Equiv.Perm NodeId) (next : Nat) (change : α → β)
    (o : Outcome α) : Outcome β :=
  (o.toRun.renumber ρ next).answer (change o.result)

/-! ## Tables -/

namespace Table

variable {α κ : Type} {key : α → κ} {f : α → α} {ρ : Equiv.Perm κ}

theorem eq_of_rows {t t' : Table key} (h : t.rows = t'.rows) : t = t' := by
  cases t
  cases t'
  cases h
  rfl

theorem key_eq_iff (hkey : ∀ a, key (f a) = ρ (key a)) (a : α) (k : κ) :
    key (f a) = ρ k ↔ key a = k := by
  rw [hkey, ρ.apply_eq_iff_eq]

variable (hkey : ∀ a, key (f a) = ρ (key a)) (t : Table key)

theorem rekey_eq_self (hsame : ∀ a, f a = a) : t.rekey f ρ hkey = t :=
  eq_of_rows ((List.map_congr_left fun a _ => hsame a).trans (List.map_id' _))

theorem keys_rekey : (t.rekey f ρ hkey).keys = t.keys.map ρ := by
  rw [keys, rekey, List.map_map, keys, List.map_map]
  exact List.map_congr_left fun a _ => hkey a

theorem filter_rekey (p : α → Bool) :
    (t.rekey f ρ hkey).filter p = (t.filter fun a => p (f a)).rekey f ρ hkey :=
  eq_of_rows List.filter_map

variable [DecidableEq κ]

theorem find?_rekey (k : κ) : (t.rekey f ρ hkey).find? (ρ k) = (t.find? k).map f := by
  simp only [find?, rekey, List.find?_map, Function.comp_def, key_eq_iff hkey]

theorem modify_rekey (k : κ) {change change' : α → α}
    (hchange : ∀ a, key (change a) = key a) (hchange' : ∀ a, key (change' a) = key a)
    (hsame : ∀ a, change' (f a) = f (change a)) :
    (t.rekey f ρ hkey).modify (ρ k) change' hchange' =
      (t.modify k change hchange).rekey f ρ hkey := by
  apply eq_of_rows
  simp only [modify, rekey, List.map_map, Function.comp_def, key_eq_iff hkey]
  apply List.map_congr_left
  intro a _
  split
  · exact hsame a
  · rfl

theorem erase_rekey (k : κ) : (t.rekey f ρ hkey).erase (ρ k) = (t.erase k).rekey f ρ hkey := by
  simp only [erase, filter_rekey, ne_eq, key_eq_iff hkey]

theorem put_rekey (a : α) : (t.rekey f ρ hkey).put (f a) = (t.put a).rekey f ρ hkey := by
  have hnew : (∀ b ∈ (t.rekey f ρ hkey).rows, key b ≠ key (f a)) ↔
      ∀ b ∈ t.rows, key b ≠ key a := by
    simp only [rekey, List.forall_mem_map, ne_eq, hkey, ρ.apply_eq_iff_eq]
  by_cases h : ∀ b ∈ t.rows, key b ≠ key a
  · rw [put, put, dif_pos (hnew.2 h), dif_pos h]
    apply eq_of_rows
    simp only [rekey, List.map_append, List.map_singleton]
  · rw [put, put, dif_neg (mt hnew.1 h), dif_neg h]
    apply eq_of_rows
    simp only [rekey, List.map_map, Function.comp_def, hkey, ρ.apply_eq_iff_eq, apply_ite f]

end Table

/-! ## Looking things up -/

section

variable (ρ : Equiv.Perm NodeId) (next : Nat)

theorem beq_renumber (a b : NodeId) : (ρ a == ρ b) = (a == b) := by
  rw [Bool.eq_iff_iff, beq_iff_eq, beq_iff_eq, ρ.apply_eq_iff_eq]

namespace Link

theorem involves_renumber (l : Link) (id : NodeId) :
    (l.renumber ρ).involves (ρ id) = l.involves id := by
  simp only [involves, renumber, beq_renumber]

theorem enters_renumber (l : Link) (id : NodeId) (pin : Nat) :
    (l.renumber ρ).enters (ρ id) pin = l.enters id pin := by
  simp only [enters, renumber, beq_renumber]

theorem touches_renumber (l : Link) (id : NodeId) (pin : Nat) (side : PinDirection) :
    (l.renumber ρ).touches (ρ id) pin side = l.touches id pin side := by
  cases side with
  | input => exact l.enters_renumber ρ id pin
  | output => simp only [touches, leaves, renumber, beq_renumber]

end Link

namespace Node

@[simp]
theorem react_renumber (n : Node) : (n.renumber ρ).react = n.react := by
  simp only [react, renumber]
  cases n.behavior with
  | none => rfl
  | some behavior =>
    simp only [Option.map_some, Behavior.renumber, Equiv.symm_apply_apply]

theorem resetInput_renumber (n : Node) (pin : Nat) :
    (n.renumber ρ).resetInput pin = (n.resetInput pin).renumber ρ := by
  have hinput : (n.renumber ρ).input? pin = n.input? pin := rfl
  rw [resetInput, resetInput, hinput]
  split
  · rfl
  · split
    · split <;> rfl
    · rfl

theorem ofSpec_renumber (id : NodeId) (spec : NodeSpec) :
    ofSpec (ρ id) (spec.renumber ρ) = (ofSpec id spec).map (renumber ρ) := by
  have hfault : (spec.renumber ρ).fault? = spec.fault? := rfl
  rw [ofSpec, ofSpec, hfault]
  cases spec.fault? <;> rfl

end Node

namespace Graph

variable (g : Graph)

theorem rows_nodes_renumber :
    (g.renumber ρ next).nodes.rows = g.nodes.rows.map (Node.renumber ρ) := rfl

theorem rows_connections_renumber :
    (g.renumber ρ next).connections.rows = g.connections.rows.map (Connection.renumber ρ) := rfl

@[simp]
theorem node?_renumber (id : NodeId) :
    (g.renumber ρ next).node? (ρ id) = (g.node? id).map (Node.renumber ρ) :=
  Table.find?_rekey (Node.id_renumber ρ) g.nodes id

@[simp]
theorem hasNode_renumber (id : NodeId) : (g.renumber ρ next).hasNode (ρ id) = g.hasNode id := by
  rw [hasNode, node?_renumber, Option.isSome_map, hasNode]

@[simp]
theorem nodeIds_renumber : (g.renumber ρ next).nodeIds = g.nodeIds.map ρ :=
  Table.keys_rekey (Node.id_renumber ρ) g.nodes

@[simp]
theorem findTitle?_renumber (title : String) :
    (g.renumber ρ next).findTitle? title = (g.findTitle? title).map ρ := by
  rw [findTitle?, findTitle?, rows_nodes_renumber, List.find?_map, Option.map_map, Option.map_map]
  rfl

@[simp]
theorem isPure_renumber (id : NodeId) : (g.renumber ρ next).isPure (ρ id) = g.isPure id := by
  rw [isPure, node?_renumber, Option.any_map, isPure]
  rfl

@[simp]
theorem connection?_renumber (id : ConnectionId) :
    (g.renumber ρ next).connection? id = (g.connection? id).map (Connection.renumber ρ) :=
  Table.find?_rekey (Connection.id_renumber ρ) g.connections id

/-- The connections that satisfy a condition are those that satisfied it before. -/
theorem filter_connections_renumber {p p' : Connection → Bool} (h : ∀ c, p' (c.renumber ρ) = p c) :
    (g.renumber ρ next).connections.rows.filter p' =
      (g.connections.rows.filter p).map (Connection.renumber ρ) := by
  rw [rows_connections_renumber, List.filter_map]
  congr 2
  funext c
  exact h c

theorem any_connections_renumber {p p' : Connection → Bool} (h : ∀ c, p' (c.renumber ρ) = p c) :
    (g.renumber ρ next).connections.rows.any p' = g.connections.rows.any p := by
  rw [rows_connections_renumber, List.any_map]
  congr 1
  funext c
  exact h c

@[simp]
theorem isConnected_renumber (id : NodeId) (pin : Nat) (side : PinDirection) :
    (g.renumber ρ next).isConnected (ρ id) pin side = g.isConnected id pin side :=
  g.any_connections_renumber ρ next fun c => c.toLink.touches_renumber ρ id pin side

@[simp]
theorem sourcePin?_renumber (l : Link) :
    (g.renumber ρ next).sourcePin? (l.renumber ρ) = g.sourcePin? l := by
  rw [sourcePin?, Link.renumber, node?_renumber, Option.bind_map, sourcePin?]
  rfl

@[simp]
theorem carriesData_renumber (l : Link) :
    (g.renumber ρ next).carriesData (l.renumber ρ) = g.carriesData l := by
  rw [carriesData, sourcePin?_renumber, carriesData]

@[simp]
theorem carriesExec_renumber (l : Link) :
    (g.renumber ρ next).carriesExec (l.renumber ρ) = g.carriesExec l := by
  rw [carriesExec, sourcePin?_renumber, carriesExec]

@[simp]
theorem dataInputs_renumber (id : NodeId) :
    (g.renumber ρ next).dataInputs (ρ id) = (g.dataInputs id).map (Connection.renumber ρ) := by
  apply filter_connections_renumber
  intro c
  exact congrArg₂ and (beq_renumber ρ c.target id) (g.carriesData_renumber ρ next c.toLink)

@[simp]
theorem feedsData_renumber (id : NodeId) :
    (g.renumber ρ next).feedsData (ρ id) = g.feedsData id := by
  apply any_connections_renumber
  intro c
  exact congrArg₂ and (beq_renumber ρ c.source id) (g.carriesData_renumber ρ next c.toLink)

/-! ## Changing one node -/

/-- A change of one node. -/
theorem modify_renumber (id : NodeId) {change change' : Node → Node}
    (hchange : ∀ n, (change n).id = n.id) (hchange' : ∀ n, (change' n).id = n.id)
    (hsame : ∀ n, change' (n.renumber ρ) = (change n).renumber ρ) :
    { g.renumber ρ next with
      nodes := (g.renumber ρ next).nodes.modify (ρ id) change' hchange' } =
      { g with nodes := g.nodes.modify id change hchange }.renumber ρ next := by
  have hnodes := Table.modify_rekey (Node.id_renumber ρ) g.nodes id hchange hchange' hsame
  rw [renumber, hnodes]
  rfl

@[simp]
theorem setMemory_renumber (id : NodeId) (memory : Memory) :
    (g.renumber ρ next).setMemory (ρ id) memory = (g.setMemory id memory).renumber ρ next :=
  modify_renumber ρ next g id _ _ fun _ => rfl

@[simp]
theorem setInput_renumber (id : NodeId) (pin : Nat) (value : Value) :
    (g.renumber ρ next).setInput (ρ id) pin value = (g.setInput id pin value).renumber ρ next :=
  modify_renumber ρ next g id _ _ fun _ => rfl

@[simp]
theorem setOutput_renumber (id : NodeId) (pin : Nat) (value : Value) :
    (g.renumber ρ next).setOutput (ρ id) pin value = (g.setOutput id pin value).renumber ρ next :=
  modify_renumber ρ next g id _ _ fun _ => rfl

@[simp]
theorem setActive_renumber (id : NodeId) (active : Bool) :
    (g.renumber ρ next).setActive (ρ id) active = (g.setActive id active).renumber ρ next :=
  modify_renumber ρ next g id _ _ fun _ => rfl

@[simp]
theorem resetInput_renumber (id : NodeId) (pin : Nat) :
    (g.renumber ρ next).resetInput (ρ id) pin = (g.resetInput id pin).renumber ρ next :=
  modify_renumber ρ next g id _ _ fun n => n.resetInput_renumber ρ pin

end Graph

end

/-! ## The same numbers -/

@[simp]
theorem Behavior.renumber_refl : Behavior.renumber (.refl _) = id := rfl

@[simp]
theorem Node.renumber_refl : Node.renumber (.refl _) = fun n => n := by
  funext n
  simp [renumber]

@[simp]
theorem NodeSpec.renumber_refl : NodeSpec.renumber (.refl _) = id := by
  funext spec
  simp [renumber]

@[simp]
theorem Template.renumber_refl : Template.renumber (.refl _) = id := by
  funext t
  simp [renumber]

@[simp]
theorem Catalog.renumber_refl : Catalog.renumber (.refl _) = id := by
  funext c
  have hrows : c.templates.rows.map (Template.renumber (.refl _)) = c.templates.rows := by simp
  exact congrArg Catalog.mk (Table.eq_of_rows hrows)

@[simp]
theorem Link.renumber_refl : Link.renumber (.refl _) = id := rfl

@[simp]
theorem Connection.renumber_refl : Connection.renumber (.refl _) = fun c => c := rfl

@[simp]
theorem Refusal.renumber_refl : Refusal.renumber (.refl _) = id := by
  funext refusal
  cases refusal <;> rfl

@[simp]
theorem ExecutionError.renumber_refl : ExecutionError.renumber (.refl _) = id := by
  funext error
  cases error <;> rfl

@[simp]
theorem Violation.renumber_refl : Violation.renumber (.refl _) = id := by
  funext violation
  cases violation <;> rfl

@[simp]
theorem Event.renumber_refl : Event.renumber (.refl _) = id := by
  funext e
  cases e <;> simp [renumber]

@[simp]
theorem Graph.renumber_refl (next : Nat) (g : Graph) :
    g.renumber (.refl _) next = { g with nextId := next } := by
  have hnodes : g.nodes.rekey _ _ (Node.id_renumber (.refl _)) = g.nodes :=
    Table.rekey_eq_self _ _ (congrFun Node.renumber_refl)
  have hconnections :
      g.connections.rekey _ _ (Connection.id_renumber (.refl _)) = g.connections :=
    Table.rekey_eq_self _ _ fun _ => rfl
  rw [renumber, hnodes, hconnections]
  simp

end FlowGraph
