import FlowGraph.Proofs.Cleanup
import FlowGraph.Proofs.Invariant
import FlowGraph.Proofs.Tally

/-!
# Ids and the order in which things stand

Node ids are handed out in increasing order and never again, and nodes stand in the order of
their ids.  Connections stand in the order in which their ids came into use, and an id that
stays in use keeps its place, whatever is stored under it.  No call can change this, so that
the first node with a title is always the oldest one that is live.
-/

namespace FlowGraph

open Execution

/-- A call that takes up the next node id, whether or not a node is created with it. -/
def Operation.creates : Operation → Bool
  | .addNode _ => true
  | .spawn catalog key => (catalog.get? key).isSome
  | _ => false

/-- The id of the node that a call creates, if it creates one. -/
def Operation.created? (g : Graph) : Operation → Option NodeId
  | .addNode spec => (g.addNode spec).result.toOption
  | .spawn catalog key => (catalog.spawn g key).result.toOption
  | _ => none

/-- What one step may do to a list of ids: some of them go, or a new one comes to the end. -/
def Trails {κ : Type} (before after : List κ) : Prop :=
  after.Sublist before ∨ ∃ id, id ∉ before ∧ after = before ++ [id]

namespace Graph

/-- The graph after a number of calls. -/
def after (g : Graph) (operations : List Operation) : Graph := operations.foldl Operation.apply g

/-- The ids of the nodes that are created by a number of calls, in the order of the calls. -/
def createdBy (g : Graph) : List Operation → List NodeId
  | [] => []
  | operation :: operations =>
    (operation.created? g).toList ++ (operation.apply g).createdBy operations

/-- Since a certain call, a connection has been stored under an id without interruption, and
none was before that call. -/
structure InUseSince (g : Graph) (operations : List Operation) (id : ConnectionId) (call : Nat) :
    Prop where
  call_lt : call < operations.length
  before : (g.after (operations.take call)).connection? id = none
  since : ∀ later, call < later → later ≤ operations.length →
    (g.after (operations.take later)).connection? id ≠ none

/-- What one call may do to the ids of a graph. -/
structure Advances (g : Graph) (taken : Bool) (created : Option NodeId) (g' : Graph) : Prop where
  nextId : g'.nextId = g.nextId + taken.toNat
  created_eq : ∀ id ∈ created, taken = true ∧ id = ⟨g.nextId⟩
  nodes : g'.nodeIds.Sublist (g.nodeIds ++ created.toList)
  connections : Trails g.connections.keys g'.connections.keys

variable {g g' start : Graph} {operation : Operation} {operations : List Operation}
  {id : ConnectionId} {node : NodeId} {title : String} {i j : Nat}

/-! ## One call -/

theorem nodeIds_skeleton (g : Graph) : g.skeleton.nodeIds = g.nodeIds := by
  simp only [nodeIds, Table.keys, skeleton, Table.map, List.map_map]
  rfl

theorem nodeIds_of_skeleton (h : g.skeleton = g'.skeleton) : g.nodeIds = g'.nodeIds := by
  rw [← nodeIds_skeleton g, h, nodeIds_skeleton]

/-- A call that hands out no node id. -/
theorem Advances.of_trails (hnext : g'.nextId = g.nextId) (hnodes : g'.nodeIds.Sublist g.nodeIds)
    (hconnections : Trails g.connections.keys g'.connections.keys) :
    g.Advances false none g' where
  nextId := hnext
  created_eq := fun id hid => absurd hid (Option.not_mem_none id)
  nodes := by
    rw [Option.toList_none, List.append_nil]
    exact hnodes
  connections := hconnections

theorem Advances.of_skeleton (h : g'.skeleton = g.skeleton) : g.Advances false none g' := by
  apply Advances.of_trails (nextId_eq_of_skeleton h)
  · rw [nodeIds_of_skeleton h]
  · rw [connections_eq_of_skeleton h]
    exact .inl (.refl _)

theorem Leaves.advances {taken : Connection → Bool} {gone : NodeId → Bool}
    (h : g.Leaves taken gone g') : g.Advances false none g' := by
  apply Advances.of_trails h.nextId
  · rw [h.nodeIds]
    exact List.filter_sublist
  · rw [Trails, Table.keys, Table.keys, h.connections]
    exact .inl (List.filter_sublist.map Connection.id)

theorem advances_restore (g : Graph) (c : Connection) : g.Advances false none (g.restore c) := by
  refine .of_trails rfl (List.Sublist.refl g.nodeIds) ?_
  rw [restore, Table.keys_put]
  split
  next => exact .inl (.refl _)
  next hnew => exact .inr ⟨c.id, hnew, rfl⟩

theorem advances_connect (g : Graph) (id : ConnectionId) (l : Link) :
    g.Advances false none (g.connect id l).graph := by
  cases hcheck : g.check l with
  | error refusal =>
    rw [(connect_of_refused id hcheck).1]
    exact .of_skeleton rfl
  | ok =>
    have hskeleton := (connect_of_admitted id hcheck).1
    have hrestore := g.advances_restore ⟨l, id⟩
    apply Advances.of_trails
    · rw [nextId_eq_of_skeleton hskeleton]
      exact hrestore.nextId
    · rw [nodeIds_of_skeleton hskeleton]
      exact .refl _
    · rw [connections_eq_of_skeleton hskeleton]
      exact hrestore.connections

theorem advances_addNode (g : Graph) (spec : NodeSpec) :
    g.Advances true (g.addNode spec).result.toOption (g.addNode spec).graph := by
  rw [addNode]
  dsimp only
  split
  next =>
    refine ⟨rfl, fun id hid => absurd hid (Option.not_mem_none id), ?_, .inl (.refl _)⟩
    exact List.sublist_append_left _ _
  next n hn =>
    have hid : n.id = ⟨g.nextId⟩ := Node.id_of_ofSpec hn
    refine ⟨rfl, fun _ hid => ⟨rfl, (Option.some.inj hid).symm⟩, ?_, .inl (.refl _)⟩
    rw [nodeIds, Table.keys_put, hid]
    split
    · exact List.sublist_append_left _ _
    · exact .refl _

/-- What any call does to the ids. -/
theorem advances_apply (g : Graph) (operation : Operation) :
    g.Advances operation.creates (operation.created? g) (operation.apply g) := by
  have hmodified : ∀ node f (hid : ∀ n : Node, (f n).id = n.id),
      g.Advances false none { g with nodes := g.nodes.modify node f hid } := by
    intro node f hid
    refine .of_trails rfl ?_ (.inl (.refl _))
    rw [nodeIds, Table.keys_modify]
    exact .refl _
  cases operation with
  | addNode spec => exact g.advances_addNode spec
  | spawn catalog key =>
    rw [Operation.creates, Operation.created?, Operation.apply, Catalog.spawn]
    split
    next hunknown =>
      rw [hunknown]
      exact .of_skeleton rfl
    next template hknown =>
      rw [hknown]
      have hadded := g.advances_addNode template.toSpec
      have hresult : ((g.addNode template.toSpec).result.mapError CatalogError.invalid).toOption =
          (g.addNode template.toSpec).result.toOption := by
        cases (g.addNode template.toSpec).result <;> rfl
      rw [← hresult] at hadded
      exact hadded
  | connect id l => exact g.advances_connect id l
  | restore c => exact g.advances_restore c
  | disconnect id => exact (leaves_disconnect g id).advances
  | disconnectNode node => exact (leaves_disconnectWhere g _).advances
  | disconnectPin node pin side => exact (leaves_disconnectWhere g _).advances
  | removeNode node =>
    cases hlive : g.hasNode node with
    | true => exact (leaves_removeNode hlive).advances
    | false =>
      rw [Operation.apply, removeNode, if_neg (ne_true_of_eq_false hlive)]
      exact .of_skeleton rfl
  | validate => exact .of_skeleton rfl
  | cleanup => exact (leaves_cleanup g).advances
  | knowOrder => exact .of_skeleton (skeleton_knowOrder g)
  | refreshPure => exact .of_skeleton (skeleton_sweep g true)
  | refreshAll => exact .of_skeleton (skeleton_sweep g false)
  | refreshConnection id => exact .of_skeleton (Run.skeleton_refreshConnection _ id)
  | refreshInputs node => exact .of_skeleton (Run.skeleton_refreshInputs _ node)
  | perform command => exact .of_skeleton (skeleton_perform g command)
  | execute node => exact .of_skeleton (skeleton_execute g node)
  | fire title => exact .of_skeleton (skeleton_fire g title)
  | fireStart => exact .of_skeleton (skeleton_fire g _)
  | fireTick => exact .of_skeleton (skeleton_fire g _)
  | rename name => exact .of_trails rfl (.refl _) (.inl (.refl _))
  | setSettings settings => exact .of_trails rfl (.refl _) (.inl (.refl _))
  | setTitle node title => exact hmodified node _ _
  | setCategory node category => exact hmodified node _ _
  | setInput node pin value => exact .of_skeleton (skeleton_setInput g node pin value)
  | setOutput node pin value => exact .of_skeleton (skeleton_setOutput g node pin value)
  | invoke node => exact .of_skeleton (Run.skeleton_invoke _ node)

/-! ## The ids of nodes -/

/-- The nodes stand in the order of their ids, which have all been handed out. -/
structure Chronological (g : Graph) : Prop where
  increasing : g.nodeIds.Pairwise fun a b => a.number < b.number
  numbered : ∀ id ∈ g.nodeIds, id.number < g.nextId

theorem chronological_empty (name : String) (settings : Settings) :
    ({ name := name, settings := settings } : Graph).Chronological where
  increasing := .nil
  numbered := fun _ hid => nomatch hid

/-- One step: a new node has a greater id than all that stand before it. -/
theorem Chronological.apply (h : g.Chronological) (operation : Operation) :
    (operation.apply g).Chronological := by
  have hstep := g.advances_apply operation
  constructor
  · apply List.Pairwise.sublist hstep.nodes
    refine List.pairwise_append.2 ⟨h.increasing, ?_, ?_⟩
    · cases operation.created? g <;> simp
    · intro a ha b hb
      rw [(hstep.created_eq b (Option.mem_toList.1 hb)).2]
      exact h.numbered a ha
  · intro a ha
    rw [hstep.nextId]
    rcases List.mem_append.1 (hstep.nodes.subset ha) with hold | hnew
    · exact (h.numbered a hold).trans_le (Nat.le_add_right _ _)
    · obtain ⟨htaken, rfl⟩ := hstep.created_eq a (Option.mem_toList.1 hnew)
      rw [htaken]
      exact Nat.lt_succ_self g.nextId

theorem Chronological.after (h : g.Chronological) (operations : List Operation) :
    (g.after operations).Chronological := by
  induction operations generalizing g with
  | nil => exact h
  | cons operation operations ih => exact ih (h.apply operation)

/-- One node id is taken up by each call that creates a node or tries to. -/
theorem nextId_after (g : Graph) (operations : List Operation) :
    (g.after operations).nextId = g.nextId + operations.countP Operation.creates := by
  induction operations generalizing g with
  | nil => rfl
  | cons operation operations ih =>
    have hrest := ih (operation.apply g)
    rw [(g.advances_apply operation).nextId] at hrest
    rw [after, List.foldl_cons, ← after, hrest, List.countP_cons]
    cases operation.creates with
    | true => exact Nat.add_right_comm _ 1 _
    | false => rfl

/-- Whatever is created by calls that are still to come has an id that is not handed out yet. -/
theorem nextId_le_of_mem_createdBy (h : node ∈ g.createdBy operations) :
    g.nextId ≤ node.number := by
  induction operations generalizing g with
  | nil => cases h
  | cons operation operations ih =>
    have hstep := g.advances_apply operation
    rcases List.mem_append.1 h with hnow | hlater
    · rw [(hstep.created_eq node (Option.mem_toList.1 hnow)).2]
    · have hle := ih hlater
      rw [hstep.nextId] at hle
      exact (Nat.le_add_right _ _).trans hle

theorem pairwise_createdBy (g : Graph) (operations : List Operation) :
    (g.createdBy operations).Pairwise fun a b => a.number < b.number := by
  induction operations generalizing g with
  | nil => exact .nil
  | cons operation operations ih =>
    have hstep := g.advances_apply operation
    refine List.pairwise_append.2 ⟨?_, ih _, ?_⟩
    · cases operation.created? g <;> simp
    · intro a ha b hb
      obtain ⟨htaken, rfl⟩ := hstep.created_eq a (Option.mem_toList.1 ha)
      have hle := nextId_le_of_mem_createdBy hb
      rw [hstep.nextId, htaken] at hle
      exact hle

/-! ## The ids of connections -/

theorem connection?_eq_none_iff : g.connection? id = none ↔ id ∉ g.connections.keys := by
  rw [connection?, Table.find?_eq_none_iff, Table.keys, List.mem_map]
  constructor
  · rintro h ⟨c, hc, rfl⟩
    exact h c hc rfl
  · rintro h c hc rfl
    exact h ⟨c, hc, rfl⟩

theorem after_concat (g : Graph) (operations : List Operation) (operation : Operation) :
    g.after (operations ++ [operation]) = operation.apply (g.after operations) :=
  List.foldl_append

/-- After one more call, nothing but that call is new. -/
theorem after_take_concat (g : Graph) (operation : Operation) {later : Nat}
    (hlater : operations.length < later) :
    g.after ((operations ++ [operation]).take later) = operation.apply (g.after operations) := by
  have hlength : (operations ++ [operation]).length ≤ later := by
    rw [List.length_append]
    exact hlater
  rw [List.take_of_length_le hlength, after_concat]

/-- There is only one call since which an id has been in use. -/
theorem InUseSince.unique (hi : g.InUseSince operations id i) (hj : g.InUseSince operations id j) :
    i = j := by
  rcases Nat.lt_trichotomy i j with hlt | heq | hlt
  · exact absurd hj.before (hi.since j hlt hj.call_lt.le)
  · exact heq
  · exact absurd hi.before (hj.since i hlt hi.call_lt.le)

/-- An id that is in use stays so with one more call that leaves it in use. -/
theorem InUseSince.concat (h : g.InUseSince operations id i)
    (hkept : id ∈ (operation.apply (g.after operations)).connections.keys) :
    g.InUseSince (operations ++ [operation]) id i where
  call_lt := by
    rw [List.length_append]
    exact Nat.lt_add_right _ h.call_lt
  before := by
    rw [List.take_append_of_le_length h.call_lt.le]
    exact h.before
  since := by
    intro later hlater hle
    rw [List.length_append, List.length_singleton] at hle
    rcases Nat.lt_or_eq_of_le hle with hearlier | hnow
    · rw [List.take_append_of_le_length (Nat.le_of_lt_succ hearlier)]
      exact h.since later hlater (Nat.le_of_lt_succ hearlier)
    · rw [g.after_take_concat operation (Nat.lt_of_succ_le hnow.ge), Ne, connection?_eq_none_iff,
        not_not]
      exact hkept

/-- An id comes into use with the call that stores a connection under it. -/
theorem inUseSince_concat (hnew : id ∉ (g.after operations).connections.keys)
    (hstored : id ∈ (operation.apply (g.after operations)).connections.keys) :
    g.InUseSince (operations ++ [operation]) id operations.length where
  call_lt := by
    rw [List.length_append]
    exact Nat.lt_succ_self _
  before := by
    rw [List.take_left, connection?_eq_none_iff]
    exact hnew
  since := by
    intro later hlater hle
    rw [g.after_take_concat operation hlater, Ne, connection?_eq_none_iff, not_not]
    exact hstored

/-- In a run from a graph without connections, they stand in the order in which their ids came
into use. -/
theorem exists_inUseSince (hempty : start.connections.keys = []) (operations : List Operation) :
    ∃ call : ConnectionId → Nat,
      (∀ id ∈ (start.after operations).connections.keys,
        start.InUseSince operations id (call id)) ∧
      (start.after operations).connections.keys.Pairwise fun a b => call a < call b := by
  induction operations using List.reverseRecOn with
  | nil =>
    rw [after, List.foldl_nil, hempty]
    exact ⟨fun _ => 0, fun id hid => absurd hid List.not_mem_nil, List.Pairwise.nil⟩
  | append_singleton operations operation ih =>
    obtain ⟨call, hsince, hordered⟩ := ih
    have hstep := ((start.after operations).advances_apply operation).connections
    rw [after_concat]
    rcases hstep with hsublist | ⟨new, hnew, hkeys⟩
    · exact ⟨call, fun id hid => (hsince id (hsublist.subset hid)).concat hid,
        hordered.sublist hsublist⟩
    · have hold : ∀ id ∈ (start.after operations).connections.keys,
          Function.update call new operations.length id = call id := by
        rintro id hid
        apply Function.update_of_ne
        rintro rfl
        exact hnew hid
      refine ⟨Function.update call new operations.length, ?_, ?_⟩
      · intro id hid
        rcases List.mem_append.1 (hkeys ▸ hid) with hbefore | hlast
        · rw [hold id hbefore]
          exact (hsince id hbefore).concat hid
        · obtain rfl := List.mem_singleton.1 hlast
          rw [Function.update_self]
          exact inUseSince_concat hnew hid
      · rw [hkeys, List.pairwise_append]
        refine ⟨hordered.imp_of_mem ?_, List.pairwise_singleton _ _, ?_⟩
        · intro a b ha hb hlt
          rw [hold a ha, hold b hb]
          exact hlt
        · intro a ha b hb
          rw [List.mem_singleton.1 hb, hold a ha, Function.update_self]
          exact (hsince a ha).call_lt

/-! ## Titles -/

/-- Where nodes stand in the order of their ids, the first one with a title has the smallest
id. -/
theorem Chronological.least_of_findTitle? (h : g.Chronological)
    (hfind : g.findTitle? title = some node) :
    (∃ n, g.node? node = some n ∧ n.title = title) ∧
      ∀ other n, g.node? other = some n → n.title = title → node.number ≤ other.number := by
  have hordered := h.increasing
  rw [nodeIds, Table.keys, List.pairwise_map] at hordered
  obtain ⟨first, hfirst, rfl⟩ := Option.map_eq_some_iff.1 hfind
  obtain ⟨htitle, before, behind, hrows, hothers⟩ := List.find?_eq_some_iff_append.1 hfirst
  have hlive := Table.find?_key_iff.2 (List.mem_of_find?_eq_some hfirst)
  refine ⟨⟨first, hlive, beq_iff_eq.1 htitle⟩, ?_⟩
  intro other n hn hntitle
  have hmem := Table.mem_of_find? hn
  rw [← Table.key_of_find? hn]
  rw [hrows] at hmem hordered
  rcases List.mem_append.1 hmem with hbefore | hbehind
  · have hne := hothers n hbefore
    rw [hntitle, beq_self_eq_true] at hne
    cases hne
  · rcases List.mem_cons.1 hbehind with rfl | hlater
    · exact Nat.le_refl _
    · exact ((List.pairwise_cons.1 (List.pairwise_append.1 hordered).2.1).1 n hlater).le

theorem Chronological.findTitle?_eq_some_iff (h : g.Chronological) :
    g.findTitle? title = some node ↔
      (∃ n, g.node? node = some n ∧ n.title = title) ∧
        ∀ other n, g.node? other = some n → n.title = title → node.number ≤ other.number := by
  refine ⟨h.least_of_findTitle?, ?_⟩
  rintro ⟨⟨n, hn, htitle⟩, hleast⟩
  cases hfind : g.findTitle? title with
  | none =>
    have hother := List.find?_eq_none.1 (Option.map_eq_none_iff.1 hfind) n (Table.mem_of_find? hn)
    rw [htitle, beq_self_eq_true] at hother
    exact absurd rfl hother
  | some first =>
    obtain ⟨⟨m, hm, hmtitle⟩, hfirst⟩ := h.least_of_findTitle? hfind
    have hnumber := Nat.le_antisymm (hfirst node n hn htitle) (hleast first m hm hmtitle)
    exact congrArg (fun number => some (NodeId.mk number)) hnumber

/-- The node that is found by the title of an event is the first that is entered in the run
that is answered (`WellFormed.exists_halts_of_fire`). -/
theorem head_entriesOfFire (g : Graph) (title : String) :
    ((g.entriesOfFire title).head?).map Prod.fst = g.findTitle? title := by
  rw [entriesOfFire]
  cases hfind : g.findTitle? title with
  | none => rfl
  | some node =>
    have hlive := hasNode_of_findTitle? hfind
    have hfirst : ∀ r : Run, r.graph.skeleton = g.skeleton →
        ((r.entries node).head?).map Prod.fst = some node := by
      intro r hskeleton
      obtain ⟨steps, hsteps⟩ :=
        Nat.exists_eq_succ_of_ne_zero (stackWeight_enter_lt_stepBound r.graph node).ne_bot
      have hentered := map_fst_entry?_enter (r.record (.executing node)) node []
      have hlive' : (r.record (.executing node)).graph.hasNode node = true :=
        (hasNode_of_skeleton hskeleton node).trans hlive
      rw [if_pos hlive'] at hentered
      rw [Run.entries, hsteps, Machine.entries]
      dsimp only [List.isEmpty_cons]
      rw [if_neg Bool.false_ne_true, ← List.head?_map, List.map_append, hentered]
      rfl
    exact hfirst _ g.skeleton_refreshed_first

/-- Whatever calls are made on an empty graph, nodes stand in the order of their ids, which is
that of their creation, and connections in the order of the calls since which their ids have
been in use.  So the first node with a title is the one with the smallest id, and an event
starts there. -/
theorem chronology (name : String) (settings : Settings) (operations : List Operation) :
    let start : Graph := { name := name, settings := settings }
    let g := start.after operations
    g.nodeIds.Pairwise (fun a b => a.number < b.number) ∧
      (∀ id n, g.node? id = some n → n.id = id ∧ id.number < g.nextId) ∧
      g.nextId = operations.countP Operation.creates ∧
      (start.createdBy operations).Pairwise (fun a b => a.number < b.number) ∧
      (∀ c ∈ g.connections.rows, ∃ call, start.InUseSince operations c.id call) ∧
      g.connections.rows.Pairwise (fun c d => ∀ i j, start.InUseSince operations c.id i →
        start.InUseSince operations d.id j → i < j) ∧
      (∀ title id, g.findTitle? title = some id ↔
        (∃ n, g.node? id = some n ∧ n.title = title) ∧
          ∀ other n, g.node? other = some n → n.title = title → id.number ≤ other.number) ∧
      ∀ title, (g.entriesOfFire title).head?.map Prod.fst = g.findTitle? title := by
  intro start g
  have hordered : g.Chronological := (chronological_empty name settings).after operations
  have hempty : start.connections.keys = [] := rfl
  obtain ⟨call, hsince, hcalls⟩ := exists_inUseSince hempty operations
  refine ⟨hordered.increasing, ?_, ?_, start.pairwise_createdBy operations, ?_, ?_,
    fun title id => hordered.findTitle?_eq_some_iff, g.head_entriesOfFire⟩
  · intro id n hn
    have hlive : id ∈ g.nodeIds := by
      rw [← Table.key_of_find? hn]
      exact List.mem_map_of_mem (Table.mem_of_find? hn)
    exact ⟨Table.key_of_find? hn, hordered.numbered id hlive⟩
  · exact (start.nextId_after operations).trans (Nat.zero_add _)
  · exact fun c hc => ⟨call c.id, hsince c.id (List.mem_map_of_mem hc)⟩
  · refine (List.pairwise_map.1 hcalls).imp_of_mem ?_
    intro c d hc hd hlt i j hi hj
    rw [hi.unique (hsince c.id (List.mem_map_of_mem hc)),
      hj.unique (hsince d.id (List.mem_map_of_mem hd))]
    exact hlt

end Graph

end FlowGraph
