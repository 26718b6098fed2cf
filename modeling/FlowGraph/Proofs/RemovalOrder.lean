import FlowGraph.Proofs.Cleanup
import FlowGraph.Proofs.KnownOrder

/-!
# The order of removals

What a removal leaves is determined by the connections and the nodes that it takes: an input is
put back to its default exactly if it was entered before and is not entered any more, whichever
connection went last.  So removals made one after the other leave what one removal of all would
leave, a bulk removal is as good as removals one by one, and any two removals can be exchanged.
-/

namespace FlowGraph

/-- A call that takes connections out of a graph, or a node. -/
inductive Removal where
  | connection (id : ConnectionId)
  | pin (node : NodeId) (index : Nat) (side : PinDirection)
  | connections (node : NodeId)
  | node (id : NodeId)

namespace Removal

/-- The graph after a removal. -/
def apply (g : Graph) : Removal → Graph
  | .connection id => (g.disconnect id).1
  | .pin id index side => (g.disconnectPin id index side).graph
  | .connections id => (g.disconnectNode id).graph
  | .node id => (g.removeNode id).graph

/-- Whether a removal takes a connection.  A node that does not exist takes none with it. -/
def takes (g : Graph) : Removal → Connection → Bool
  | .connection id, c => c.id = id
  | .pin id index side, c => c.touches id index side
  | .connections id, c => c.involves id
  | .node id, c => g.hasNode id && c.involves id

/-- Whether a removal takes a node. -/
def drops (g : Graph) : Removal → NodeId → Bool
  | .node id, other => g.hasNode id && other = id
  | _, _ => false

end Removal

namespace Graph

variable {g g' g'' : Graph} {taken taken' : Connection → Bool} {gone gone' : NodeId → Bool}
  {n n' n'' : Node} {id : NodeId} {index : Nat}

/-! ## Removals one after the other -/

theorem Leaves.subset (h : g.Leaves taken gone g') : g'.connections.rows ⊆ g.connections.rows := by
  rw [h.connections]
  exact List.filter_sublist.subset

theorem Entered.mono (h : g'.Entered id index)
    (hsubset : g'.connections.rows ⊆ g.connections.rows) :
    g.Entered id index := by
  obtain ⟨c, hc, hends⟩ := h
  exact ⟨c, hsubset hc, hends⟩

/-- A node that is relieved twice is relieved of all at once. -/
theorem Relieved.trans (h : g.Relieved g' n n') (h' : g'.Relieved g'' n' n'')
    (hfirst : g'.connections.rows ⊆ g.connections.rows)
    (hsecond : g''.connections.rows ⊆ g'.connections.rows) : g.Relieved g'' n n'' := by
  have hid : n'.id = n.id := h.id_eq
  have hinput : ∀ index, n'.input? index = n.input? index := by
    intro index
    rw [h.same]
    rfl
  constructor
  · rw [h'.same, h.same]
  · intro index pin hvacated
    by_cases hbetween : g'.Entered n.id index
    · -- the last connection goes in the second removal
      apply h'.restored
      exact ⟨(hinput index).trans hvacated.input, hvacated.data, hid ▸ hbetween,
        hid ▸ hvacated.after⟩
    · rw [h'.kept index fun pin hagain => hbetween (hid ▸ hagain.before)]
      exact h.restored index pin ⟨hvacated.input, hvacated.data, hvacated.before, hbetween⟩
  · intro index hkept
    have hlater : ∀ pin, ¬ g'.Vacated g'' n' index pin := by
      intro pin hvacated
      apply hkept pin
      exact ⟨(hinput index).symm.trans hvacated.input, hvacated.data,
        (hid ▸ hvacated.before : g'.Entered n.id index).mono hfirst, hid ▸ hvacated.after⟩
    have hearlier : ∀ pin, ¬ g.Vacated g' n index pin := by
      intro pin hvacated
      apply hkept pin
      exact ⟨hvacated.input, hvacated.data, hvacated.before,
        fun hentered => hvacated.after (hentered.mono hsecond)⟩
    rw [h'.kept index hlater, h.kept index hearlier]

theorem forall₂_trans {α : Type} {R S T : α → α → Prop} (htrans : ∀ a b c, R a b → S b c → T a c)
    {as bs cs : List α} (h : List.Forall₂ R as bs) (h' : List.Forall₂ S bs cs) :
    List.Forall₂ T as cs := by
  induction h generalizing cs with
  | nil =>
    cases h'
    exact .nil
  | cons hab _ ih =>
    cases h' with
    | cons hbc hrest => exact .cons (htrans _ _ _ hab hbc) (ih hrest)

/-- Two removals leave what one removal of all that they take would leave. -/
theorem Leaves.trans (h : g.Leaves taken gone g') (h' : g'.Leaves taken' gone' g'') :
    g.Leaves (fun c => taken c || taken' c) (fun id => gone id || gone' id) g'' where
  connections := by
    rw [h'.connections, h.connections, List.filter_filter]
    apply List.filter_congr
    intro c _
    rw [Bool.not_or, Bool.and_comm]
  nodes := by
    have hstays : List.Forall₂ (g.Relieved g')
        ((g.nodes.rows.filter fun n => !gone n.id).filter fun n => !gone' n.id)
        (g'.nodes.rows.filter fun n => !gone' n.id) := by
      apply List.rel_filter _ h.nodes
      intro n n' hrelieved
      simp only [hrelieved.id_eq]
    have hboth : (g.nodes.rows.filter fun n => !gone n.id).filter (fun n => !gone' n.id) =
        g.nodes.rows.filter fun n => !(gone n.id || gone' n.id) := by
      rw [List.filter_filter]
      apply List.filter_congr
      intro n _
      rw [Bool.not_or, Bool.and_comm]
    rw [hboth] at hstays
    exact forall₂_trans (fun _ _ _ hfirst hsecond => hfirst.trans hsecond h.subset h'.subset) hstays
      h'.nodes
  name := h'.name.trans h.name
  settings := h'.settings.trans h.settings
  nextId := h'.nextId.trans h.nextId

theorem leaves_refl (g : Graph) : g.Leaves (fun _ => false) (fun _ => false) g where
  connections := (List.filter_eq_self.2 fun _ _ => rfl).symm
  nodes := by
    have hall : g.nodes.rows.filter (fun _ => !false) = g.nodes.rows :=
      List.filter_eq_self.2 fun _ _ => rfl
    rw [hall]
    apply List.forall₂_same.2
    intro n _
    exact ⟨rfl, fun _ _ hvacated => absurd hvacated.before hvacated.after, fun _ _ => rfl⟩
  name := rfl
  settings := rfl
  nextId := rfl

theorem Leaves.congr (h : g.Leaves taken gone g') (htaken : ∀ c, taken c = taken' c)
    (hgone : ∀ id, gone id = gone' id) : g.Leaves taken' gone' g' := by
  obtain rfl : taken = taken' := funext htaken
  obtain rfl : gone = gone' := funext hgone
  exact h

/-! ## What a removal leaves is determined by what it takes -/

theorem Relieved.of_rows (h : g.Relieved g' n n')
    (hrows : g''.connections.rows = g'.connections.rows) : g.Relieved g'' n n' := by
  have hvacated : ∀ index pin, g.Vacated g'' n index pin ↔ g.Vacated g' n index pin := by
    intro index pin
    have hentered : g''.Entered n.id index ↔ g'.Entered n.id index := by
      rw [Entered, hrows, Entered]
    constructor
    · rintro ⟨hpin, hdata, hbefore, hafter⟩
      exact ⟨hpin, hdata, hbefore, mt hentered.2 hafter⟩
    · rintro ⟨hpin, hdata, hbefore, hafter⟩
      exact ⟨hpin, hdata, hbefore, mt hentered.1 hafter⟩
  constructor
  · exact h.same
  · intro index pin hvacant
    exact h.restored index pin ((hvacated index pin).1 hvacant)
  · intro index hkept
    exact h.kept index fun pin hvacant => hkept pin ((hvacated index pin).2 hvacant)

theorem relieved_rightUnique (g g' : Graph) : Relator.RightUnique (g.Relieved g') := by
  intro n left right h h'
  have hinputs : left.memory.inputs = right.memory.inputs := by
    apply Store.ext_get?
    intro index
    by_cases hvacant : ∃ pin, g.Vacated g' n index pin
    · obtain ⟨pin, hvacated⟩ := hvacant
      rw [h.restored index pin hvacated, h'.restored index pin hvacated]
    · rw [not_exists] at hvacant
      rw [h.kept index hvacant, h'.kept index hvacant]
  rw [h.same, h'.same, hinputs]

theorem Leaves.unique {left right : Graph} (h : g.Leaves taken gone left)
    (h' : g.Leaves taken' gone right) (htaken : ∀ c ∈ g.connections.rows, taken c = taken' c)
    (hknown : left.knownOrder = right.knownOrder) : left = right := by
  have hrows : left.connections.rows = right.connections.rows := by
    rw [h.connections, h'.connections]
    apply List.filter_congr
    intro c hc
    rw [htaken c hc]
  have hnodes : left.nodes.rows = right.nodes.rows :=
    (relieved_rightUnique g left).forall₂ h.nodes (h'.nodes.imp fun _ _ hn => hn.of_rows hrows)
  obtain ⟨_, _, _, ⟨_, _⟩, ⟨_, _⟩, _⟩ := left
  obtain ⟨_, _, _, ⟨_, _⟩, ⟨_, _⟩, _⟩ := right
  cases h.name.trans h'.name.symm
  cases h.settings.trans h'.settings.symm
  cases h.nextId.trans h'.nextId.symm
  cases hrows
  cases hnodes
  cases hknown
  rfl

end Graph

/-! ## Exchanging removals -/

namespace Removal

variable (g : Graph) (r : Removal)

theorem leaves_apply : g.Leaves (r.takes g) (r.drops g) (r.apply g) := by
  cases r with
  | connection id => exact Graph.leaves_disconnect g id
  | pin id index side => exact Graph.leaves_disconnectWhere g _
  | connections id => exact Graph.leaves_disconnectWhere g _
  | node id =>
    cases hlive : g.hasNode id with
    | true =>
      apply (Graph.leaves_removeNode hlive).congr
      · intro c
        rw [takes, hlive, Bool.true_and]
      · intro other
        rw [drops, hlive, Bool.true_and]
    | false =>
      have hsame : apply g (.node id) = g := by
        rw [apply, Graph.removeNode, if_neg (ne_true_of_eq_false hlive)]
      rw [hsame]
      apply (Graph.leaves_refl g).congr
      · intro c
        rw [takes, hlive, Bool.false_and]
      · intro other
        rw [drops, hlive, Bool.false_and]

theorem disconnectWhere_eq_self_or (p : Connection → Bool) :
    (g.disconnectWhere p).graph = g ∨ (g.disconnectWhere p).graph.knownOrder = none := by
  rw [Graph.disconnectWhere]
  dsimp only
  split
  · exact .inl rfl
  · right
    exact Run.knownOrder_foldl (fun r c => Graph.knownOrder_vacate r.graph c.toLink) _ _

/-- A removal that finds nothing to do leaves the graph as it is, and any other one forgets the
data order. -/
theorem apply_eq_self_or : r.apply g = g ∨ (r.apply g).knownOrder = none := by
  cases r with
  | connection id =>
    rw [apply, Graph.disconnect]
    split
    · exact .inl rfl
    · exact .inr (Graph.knownOrder_vacate _ _)
  | pin id index side => exact disconnectWhere_eq_self_or g _
  | connections id => exact disconnectWhere_eq_self_or g _
  | node id =>
    rw [apply, Graph.removeNode]
    split
    · exact .inr rfl
    · exact .inl rfl

theorem knownOrder_apply_of_none (hnone : g.knownOrder = none) :
    (r.apply g).knownOrder = none := by
  rcases apply_eq_self_or g r with hsame | hforgets
  · rw [hsame, hnone]
  · exact hforgets

theorem hasNode_apply (id : NodeId) :
    (r.apply g).hasNode id = (g.hasNode id && !r.drops g id) := by
  have hids := (leaves_apply g r).nodeIds
  rw [Bool.eq_iff_iff, Bool.and_eq_true]
  constructor
  · intro hlive
    have hmem := Graph.mem_nodeIds_of_hasNode hlive
    rw [hids] at hmem
    exact ⟨Graph.hasNode_of_mem_nodeIds (List.mem_filter.1 hmem).1, (List.mem_filter.1 hmem).2⟩
  · rintro ⟨hlive, hstays⟩
    apply Graph.hasNode_of_mem_nodeIds
    rw [hids]
    exact List.mem_filter.2 ⟨Graph.mem_nodeIds_of_hasNode hlive, hstays⟩

variable {g r}

/-- With a node goes every connection that has it as one of its ends. -/
theorem takes_of_drops {id : NodeId} (h : r.drops g id = true) (c : Connection) :
    r.takes g c = c.involves id := by
  cases r with
  | node removed =>
    rw [drops, Bool.and_eq_true, decide_eq_true_iff] at h
    obtain ⟨hlive, rfl⟩ := h
    rw [takes, hlive, Bool.true_and]
  | connection _ => cases h
  | pin _ _ _ => cases h
  | connections _ => cases h

variable (g r)

/-- Two removals take together what each of them takes by itself. -/
theorem takes_apply (other : Removal) (c : Connection) :
    (r.takes g c || other.takes (r.apply g) c) = (r.takes g c || other.takes g c) := by
  cases other with
  | connection id => rfl
  | pin id index side => rfl
  | connections id => rfl
  | node id =>
    rw [takes, hasNode_apply, takes]
    cases hdrops : r.drops g id with
    | false => rw [Bool.not_false, Bool.and_true]
    | true =>
      rw [takes_of_drops hdrops c]
      cases c.involves id <;> simp

theorem drops_apply (other : Removal) (id : NodeId) :
    (r.drops g id || other.drops (r.apply g) id) = (r.drops g id || other.drops g id) := by
  cases other with
  | connection _ => rfl
  | pin _ _ _ => rfl
  | connections _ => rfl
  | node removed =>
    rw [drops, hasNode_apply, drops]
    by_cases hid : id = removed
    · rw [hid]
      cases r.drops g removed <;> simp
    · rw [decide_eq_false hid, Bool.and_false, Bool.and_false]

theorem leaves_apply_apply (other : Removal) :
    g.Leaves (fun c => r.takes g c || other.takes g c) (fun id => r.drops g id || other.drops g id)
      (other.apply (r.apply g)) :=
  ((leaves_apply g r).trans (leaves_apply (r.apply g) other)).congr (takes_apply g r other)
    (drops_apply g r other)

theorem apply_comm (other : Removal) : other.apply (r.apply g) = r.apply (other.apply g) := by
  have hleft := leaves_apply_apply g r other
  have hright := (leaves_apply_apply g other r).congr (fun c => Bool.or_comm _ (r.takes g c))
    fun id => Bool.or_comm _ (r.drops g id)
  apply hleft.unique hright fun _ _ => rfl
  -- the order is forgotten in both cases, unless neither removal finds anything to do
  rcases apply_eq_self_or g r with hr | hr
  · rcases apply_eq_self_or g other with hother | hother
    · rw [hr, hother, hr]
    · rw [hr, hother, knownOrder_apply_of_none _ _ hother]
  · rw [knownOrder_apply_of_none _ _ hr]
    rcases apply_eq_self_or g other with hother | hother
    · rw [hother, hr]
    · rw [knownOrder_apply_of_none _ _ hother]

end Removal

/-! ## Removals one by one -/

namespace Graph

variable {g : Graph} {id : ConnectionId} {order : List ConnectionId} {p : Connection → Bool}

/-- Remove connections one by one. -/
def disconnectEach (g : Graph) (order : List ConnectionId) : Graph :=
  order.foldl (fun g id => (g.disconnect id).1) g

/-- The ids of the connections that satisfy a condition, in insertion order. -/
def idsWhere (g : Graph) (p : Connection → Bool) : List ConnectionId :=
  (g.connections.rows.filter p).map Connection.id

theorem leaves_disconnectEach (g : Graph) (order : List ConnectionId) :
    g.Leaves (fun c => c.id ∈ order) (fun _ => false) (g.disconnectEach order) := by
  induction order generalizing g with
  | nil =>
    apply (leaves_refl g).congr
    · intro c
      exact (decide_eq_false List.not_mem_nil).symm
    · intro _
      rfl
  | cons id order ih =>
    apply ((leaves_disconnect g id).trans (ih (g.disconnect id).1)).congr
    · intro c
      rw [← Bool.decide_or, decide_eq_decide]
      exact List.mem_cons.symm
    · intro _
      rfl

theorem knownOrder_disconnectEach (hnone : g.knownOrder = none) (order : List ConnectionId) :
    (g.disconnectEach order).knownOrder = none := by
  induction order generalizing g with
  | nil => exact hnone
  | cons id order ih => exact ih (Removal.knownOrder_apply_of_none g (.connection id) hnone)

theorem knownOrder_disconnect (hstored : (g.connection? id).isSome = true) :
    (g.disconnect id).1.knownOrder = none := by
  obtain ⟨c, hc⟩ := Option.isSome_iff_exists.1 hstored
  rw [disconnect, hc]
  exact knownOrder_vacate _ _

theorem knownOrder_disconnectWhere (h : ∃ c ∈ g.connections.rows, p c = true) :
    (g.disconnectWhere p).graph.knownOrder = none := by
  rcases Removal.disconnectWhere_eq_self_or g p with hsame | hforgets
  · obtain ⟨c, hc, hp⟩ := h
    rw [← hsame, rows_disconnectWhere] at hc
    simp [hp] at hc
  · exact hforgets

theorem mem_idsWhere_iff :
    id ∈ g.idsWhere p ↔ ∃ c, g.connection? id = some c ∧ p c = true := by
  rw [idsWhere, List.mem_map]
  constructor
  · rintro ⟨c, hc, rfl⟩
    obtain ⟨hc, hp⟩ := List.mem_filter.1 hc
    exact ⟨c, Table.find?_key_iff.2 hc, hp⟩
  · rintro ⟨c, hc, hp⟩
    exact ⟨c, List.mem_filter.2 ⟨Table.mem_of_find? hc, hp⟩, Table.key_of_find? hc⟩

/-- To remove the connections that satisfy a condition is to remove them one by one, in any
order. -/
theorem disconnectWhere_eq (horder : order.Perm (g.idsWhere p)) :
    (g.disconnectWhere p).graph = g.disconnectEach order ∧
      (g.disconnectWhere p).result = order.length := by
  have hresult : (g.disconnectWhere p).result = order.length := by
    rw [result_disconnectWhere, List.countP_eq_length_filter, horder.length_eq, idsWhere,
      List.length_map]
  refine ⟨?_, hresult⟩
  apply (leaves_disconnectWhere g p).unique (leaves_disconnectEach g order)
  · intro c hc
    have hfind : g.connection? c.id = some c := Table.find?_key_iff.2 hc
    rw [Bool.eq_iff_iff, decide_eq_true_iff, horder.mem_iff, mem_idsWhere_iff, hfind]
    simp
  · cases order with
    | nil =>
      have hnone : g.connections.rows.filter p = [] := List.map_eq_nil_iff.1 horder.nil_eq.symm
      rw [disconnectWhere, hnone]
      rfl
    | cons id order =>
      obtain ⟨c, hc, hp⟩ := mem_idsWhere_iff.1 (horder.subset List.mem_cons_self)
      have hstored : (g.connection? id).isSome = true := by rw [hc, Option.isSome_some]
      rw [knownOrder_disconnectWhere ⟨c, Table.mem_of_find? hc, hp⟩]
      exact (knownOrder_disconnectEach (knownOrder_disconnect hstored) order).symm

theorem idsWhere_reported_perm (g : Graph) :
    (g.idsWhere fun c => c.id ∈ g.reported).Perm g.reported := by
  have hkeys : (g.idsWhere fun c => c.id ∈ g.reported) =
      g.connections.keys.filter fun id => id ∈ g.reported := by
    rw [idsWhere, Table.keys, List.filter_map]
    rfl
  rw [hkeys]
  exact perm_reported g

/-- Each bulk removal does what removing its connections one by one does, in any order, and
answers how many they are.  Any two removals can be exchanged. -/
theorem removal_order_makes_no_difference (g : Graph) :
    (∀ node order, order.Perm (g.idsWhere fun c => c.involves node) →
      (g.disconnectNode node).graph = g.disconnectEach order ∧
        (g.disconnectNode node).result = order.length) ∧
    (∀ node index side order, order.Perm (g.idsWhere fun c => c.touches node index side) →
      (g.disconnectPin node index side).graph = g.disconnectEach order ∧
        (g.disconnectPin node index side).result = order.length) ∧
    (∀ order, order.Perm g.reported →
      g.cleanup.graph = g.disconnectEach order ∧ g.cleanup.result = order.length) ∧
    ∀ r other : Removal, other.apply (r.apply g) = r.apply (other.apply g) := by
  refine ⟨?_, ?_, ?_, ?_⟩
  · intro node order horder
    exact disconnectWhere_eq horder
  · intro node index side order horder
    exact disconnectWhere_eq horder
  · intro order horder
    rw [(cleanup_eq_disconnectWhere g).1, (cleanup_eq_disconnectWhere g).2]
    exact disconnectWhere_eq (horder.trans (idsWhere_reported_perm g).symm)
  · intro r other
    exact r.apply_comm g other

/-- The reported connections of the tangled graph can be removed from the last to the first, and
so can those of a node. -/
theorem removal_order_makes_no_difference_tangled :
    tangled.cleanup.graph = tangled.disconnectEach [⟨4⟩, ⟨3⟩, ⟨2⟩] ∧ tangled.cleanup.result = 3 ∧
      (tangled.disconnectNode ⟨2⟩).graph = tangled.disconnectEach [⟨5⟩, ⟨3⟩, ⟨1⟩] ∧
      (Removal.node ⟨2⟩).apply ((Removal.connection ⟨5⟩).apply tangled) =
        (Removal.connection ⟨5⟩).apply ((Removal.node ⟨2⟩).apply tangled) := by
  obtain ⟨hnode, -, hcleanup, hexchange⟩ := removal_order_makes_no_difference tangled
  obtain ⟨hgraph, hcount⟩ := hcleanup [⟨4⟩, ⟨3⟩, ⟨2⟩] (by decide)
  exact ⟨hgraph, hcount, (hnode ⟨2⟩ [⟨5⟩, ⟨3⟩, ⟨1⟩] (by decide)).1,
    hexchange (.connection ⟨5⟩) (.node ⟨2⟩)⟩

end Graph

end FlowGraph
