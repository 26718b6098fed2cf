import FlowGraph.Proofs.Memory
import Mathlib.Data.List.Nodup

/-!
# Passes

A pass goes through nodes one after the other; at each it copies into the inputs of the
node and perhaps invokes it.  Both the refresh of a whole graph and that of the inputs of
one node are passes.  At a node whose sources have all had their turn the pass leaves what
can be computed from what the node remembered before and from what the sources hold in the
end.  So it does not matter to the node when its turn came.
-/

namespace FlowGraph

/-- What a pass does at each node: the connections along which it copies into the node,
and whether it invokes the node. -/
structure Plan where
  inputs : NodeId → List Connection
  invokes : NodeId → Bool

/-- A plan brings to a node what ends there, and invokes live nodes only. -/
structure Plan.Apt (plan : Plan) (g : Graph) : Prop where
  target_eq : ∀ id, ∀ c ∈ plan.inputs id, c.target = id
  live : ∀ id, plan.invokes id = true → g.hasNode id = true

/-- What the memory of a node becomes at its turn, with the values that sources hold in a
graph. -/
def Plan.next (plan : Plan) (g : Graph) (id : NodeId) (m : Memory) : Memory :=
  let filled := m.receiveAll g.delivery? (plan.inputs id)
  if plan.invokes id then g.react id filled else filled

/-- The connections along which a value comes into a node at its turn. -/
def Plan.delivered (plan : Plan) (g : Graph) (id : NodeId) : List Connection :=
  (plan.inputs id).filter fun c => (g.delivery? c.toLink).isSome

/-- The copies and the invocation that a node sees at its turn. -/
def Plan.moves (plan : Plan) (g : Graph) (id : NodeId) : List Event :=
  (plan.delivered g id).map (fun c => .copied c.id) ++
    if plan.invokes id then [.invoked id] else []

/-- The sources of a node have had their turn when its own comes: those that are invoked
do not stand later in the order, and the node itself is not among them. -/
def Plan.Ready (plan : Plan) (id : NodeId) (after : List NodeId) : Prop :=
  ∀ c ∈ plan.inputs id, plan.invokes c.source = true → c.source ∉ id :: after

/-- An event is a move if it is an invocation or a copy. -/
def Event.isMove (e : Event) : Bool := e.isInvocation || e.isCopy

@[simp]
theorem Event.isMove_ofRemark (id : NodeId) (remark : Remark) :
    (ofRemark id remark).isMove = false := by
  cases remark <;> rfl

namespace Run

/-- The turn of one node. -/
def settle (plan : Plan) (r : Run) (id : NodeId) : Run :=
  let copied := r.copyAll (plan.inputs id)
  if plan.invokes id then copied.invoke id else copied

/-- A pass over nodes in a given order. -/
def pass (r : Run) (plan : Plan) (order : List NodeId) : Run := order.foldl (settle plan) r

/-- The copies and invocations so far, in the order in which they happened. -/
def moves (r : Run) : List Event := r.events.filter Event.isMove

end Run

section

variable {plan : Plan} {g g' : Graph} {r : Run} {id other : NodeId} {l : Link}
  {order before after : List NodeId}

theorem Plan.Apt.of_skeleton (h : plan.Apt g) (hskeleton : g'.skeleton = g.skeleton) :
    plan.Apt g' where
  target_eq := h.target_eq
  live id hid := by
    rw [Graph.hasNode_of_skeleton hskeleton]
    exact h.live id hid

theorem notMem_of_nodup (hdistinct : (before ++ id :: after).Nodup) : id ∉ before ∧ id ∉ after := by
  have hnotMem := (List.nodup_cons.1 (List.nodup_middle.1 hdistinct)).1
  rwa [List.mem_append, not_or] at hnotMem

/-- A node is ready if its sources stand before it. -/
theorem Plan.Ready.of_before (hdistinct : (before ++ id :: after).Nodup)
    (hbefore : ∀ c ∈ plan.inputs id, c.source ∈ before) : plan.Ready id after := by
  intro c hc _ hlater
  exact (List.nodup_append.1 hdistinct).2.2 c.source (hbefore c hc) c.source hlater rfl

theorem Plan.next_congr (hskeleton : g.skeleton = g'.skeleton)
    (hdelivery : ∀ c ∈ plan.inputs id, g.delivery? c.toLink = g'.delivery? c.toLink)
    (m : Memory) : plan.next g id m = plan.next g' id m := by
  rw [next, next, Memory.receiveAll_congr hdelivery, Graph.react_of_skeleton hskeleton]

/-- Only whether a value comes along a connection matters to the moves. -/
theorem Plan.delivered_congr
    (hdelivery : ∀ c ∈ plan.inputs id,
      (g.delivery? c.toLink).isSome = (g'.delivery? c.toLink).isSome) :
    plan.delivered g id = plan.delivered g' id := by
  apply List.filter_congr
  intro c hc
  rw [hdelivery c hc]

theorem Plan.moves_congr
    (hdelivery : ∀ c ∈ plan.inputs id,
      (g.delivery? c.toLink).isSome = (g'.delivery? c.toLink).isSome) :
    plan.moves g id = plan.moves g' id := by
  rw [moves, moves, delivered_congr hdelivery]

namespace Run

/-! ## Memory -/

@[simp]
theorem skeleton_settle (plan : Plan) (r : Run) (id : NodeId) :
    (r.settle plan id).graph.skeleton = r.graph.skeleton := by
  rw [settle]
  split <;> simp

@[simp]
theorem skeleton_pass (r : Run) (plan : Plan) (order : List NodeId) :
    (r.pass plan order).graph.skeleton = r.graph.skeleton :=
  skeleton_foldl (skeleton_settle plan) r order

theorem pass_cons (r : Run) (plan : Plan) (id : NodeId) (order : List NodeId) :
    r.pass plan (id :: order) = (r.settle plan id).pass plan order :=
  rfl

theorem pass_append (r : Run) (plan : Plan) (before after : List NodeId) :
    r.pass plan (before ++ after) = (r.pass plan before).pass plan after :=
  List.foldl_append

/-- What does the same as the plan at each node does the same as a pass. -/
theorem foldl_eq_pass {f : Run → NodeId → Run}
    (hf : ∀ r id, r.graph.skeleton = g.skeleton → f r id = r.settle plan id)
    (hr : r.graph.skeleton = g.skeleton) (order : List NodeId) :
    order.foldl f r = r.pass plan order := by
  induction order generalizing r with
  | nil => rfl
  | cons id order ih =>
    rw [List.foldl_cons, hf r id hr, pass_cons]
    exact ih ((skeleton_settle plan r id).trans hr)

/-- The turn of a node changes what that node remembers and nothing else. -/
theorem memory?_settle (hplan : plan.Apt r.graph) (id other : NodeId) :
    (r.settle plan id).graph.memory? other =
      if other = id then (r.graph.memory? other).map (plan.next r.graph id)
      else r.graph.memory? other := by
  rw [settle]
  split
  next hinvokes =>
    rw [memory?_invoke, memory?_copyAll (hplan.target_eq id)]
    split
    · rw [Option.map_map]
      congr 1
      funext m
      rw [Function.comp_apply, Graph.react_of_skeleton (skeleton_copyAll r _), Plan.next,
        if_pos hinvokes]
    · rfl
  next hinvokes =>
    rw [memory?_copyAll (hplan.target_eq id)]
    congr 2
    funext m
    rw [Plan.next, if_neg hinvokes]

theorem memory?_pass_of_notMem (hplan : plan.Apt r.graph) (hid : id ∉ order) :
    (r.pass plan order).graph.memory? id = r.graph.memory? id := by
  induction order generalizing r with
  | nil => rfl
  | cons head order ih =>
    obtain ⟨hhead, hrest⟩ := not_or.1 (mt List.mem_cons.2 hid)
    rw [pass_cons, ih (hplan.of_skeleton (skeleton_settle plan r head)) hrest,
      memory?_settle hplan, if_neg hhead]

theorem outputs_next_of_not_invoked (hid : plan.invokes id = false) (g : Graph) (m : Memory) :
    (plan.next g id m).outputs = m.outputs ∧ (plan.next g id m).locals = m.locals := by
  rw [Plan.next, hid]
  exact ⟨Memory.outputs_receiveAll m _ _, Memory.locals_receiveAll m _ _⟩

/-- Without an invocation a node keeps its outputs and locals. -/
theorem kept_pass_of_not_invoked (hplan : plan.Apt r.graph) (hid : plan.invokes id = false) :
    ((r.pass plan order).graph.memory? id).map Memory.outputs =
        (r.graph.memory? id).map Memory.outputs ∧
      ((r.pass plan order).graph.memory? id).map Memory.locals =
        (r.graph.memory? id).map Memory.locals := by
  induction order generalizing r with
  | nil => exact ⟨rfl, rfl⟩
  | cons head order ih =>
    obtain ⟨houtputs, hlocals⟩ := ih (hplan.of_skeleton (skeleton_settle plan r head))
    rw [pass_cons, houtputs, hlocals, memory?_settle hplan]
    split
    next heq =>
      subst heq
      rw [Option.map_map, Option.map_map]
      constructor <;> congr 1 <;> funext m
      · exact (outputs_next_of_not_invoked hid _ m).1
      · exact (outputs_next_of_not_invoked hid _ m).2
    next => exact ⟨rfl, rfl⟩

/-- A source that is not invoked any more delivers what it will deliver in the end. -/
theorem delivery?_pass (hplan : plan.Apt r.graph)
    (hsource : plan.invokes l.source = true → l.source ∉ order) :
    (r.pass plan order).graph.delivery? l = r.graph.delivery? l := by
  apply Graph.delivery?_congr (skeleton_pass r plan order)
  cases hinvokes : plan.invokes l.source with
  | false => exact (kept_pass_of_not_invoked hplan hinvokes).1
  | true => rw [memory?_pass_of_notMem hplan (hsource hinvokes)]

/-- The turn of a node is the only one at which its memory changes. -/
theorem memory?_pass_at_turn (hplan : plan.Apt r.graph) (hsplit : order = before ++ id :: after)
    (hdistinct : order.Nodup) :
    (r.pass plan order).graph.memory? id =
      (r.graph.memory? id).map (plan.next (r.pass plan before).graph id) := by
  subst hsplit
  obtain ⟨hbefore, hafter⟩ := notMem_of_nodup hdistinct
  have hplan' : plan.Apt (r.pass plan before).graph :=
    hplan.of_skeleton (skeleton_pass r plan before)
  rw [pass_append, pass_cons,
    memory?_pass_of_notMem (hplan'.of_skeleton (skeleton_settle plan _ id)) hafter,
    memory?_settle hplan', if_pos rfl, memory?_pass_of_notMem hplan hbefore]

/-- At the turn of a node whose sources have had theirs, they deliver what they will deliver
in the end. -/
theorem delivery?_at_turn_of_ready (hplan : plan.Apt r.graph)
    (hsplit : order = before ++ id :: after) (hready : plan.Ready id after) {c : Connection}
    (hc : c ∈ plan.inputs id) :
    (r.pass plan before).graph.delivery? c.toLink =
      (r.pass plan order).graph.delivery? c.toLink := by
  rw [hsplit, pass_append]
  exact (delivery?_pass (hplan.of_skeleton (skeleton_pass r plan before)) (hready c hc)).symm

/-- At any turn a source delivers either what it delivered before the pass or what it will
deliver in the end, as its own turn is still to come or has gone by. -/
theorem delivery?_at_turn (hplan : plan.Apt r.graph) (hsplit : order = before ++ id :: after)
    (hdistinct : order.Nodup) (l : Link) :
    (r.pass plan before).graph.delivery? l = r.graph.delivery? l ∨
      (r.pass plan before).graph.delivery? l = (r.pass plan order).graph.delivery? l := by
  subst hsplit
  by_cases hsource : l.source ∈ before
  · have hlater : l.source ∉ id :: after := fun hlater =>
      (List.nodup_append.1 hdistinct).2.2 _ hsource _ hlater rfl
    rw [pass_append]
    exact .inr (delivery?_pass (hplan.of_skeleton (skeleton_pass r plan before))
      fun _ => hlater).symm
  · exact .inl (delivery?_pass hplan fun _ => hsource)

/-- What a pass leaves at a node whose sources have had their turn. -/
theorem memory?_pass (hplan : plan.Apt r.graph) (hsplit : order = before ++ id :: after)
    (hdistinct : order.Nodup) (hready : plan.Ready id after) :
    (r.pass plan order).graph.memory? id =
      (r.graph.memory? id).map (plan.next (r.pass plan order).graph id) := by
  have hsame :
      plan.next (r.pass plan before).graph id = plan.next (r.pass plan order).graph id := by
    funext m
    apply Plan.next_congr
    · rw [skeleton_pass, skeleton_pass]
    · exact fun c hc => delivery?_at_turn_of_ready hplan hsplit hready hc
  rw [memory?_pass_at_turn hplan hsplit hdistinct, hsame]

end Run

/-! ## Moves -/

namespace Plan

variable {c : Connection} {k : ConnectionId}

theorem copied_mem_moves_iff :
    Event.copied k ∈ plan.moves g id ↔ ∃ c ∈ plan.delivered g id, c.id = k := by
  rw [moves, List.mem_append, List.mem_map]
  constructor
  · rintro (⟨c, hc, heq⟩ | hinvoked)
    · cases heq
      exact ⟨c, hc, rfl⟩
    · split at hinvoked <;> simp at hinvoked
  · rintro ⟨c, hc, rfl⟩
    exact .inl ⟨c, hc, rfl⟩

theorem countP_isInvocation_moves (plan : Plan) (g : Graph) (order : List NodeId) :
    (order.flatMap (plan.moves g)).countP Event.isInvocation = order.countP plan.invokes := by
  induction order with
  | nil => rfl
  | cons id order ih =>
    have hcopies : ((plan.delivered g id).map fun c => Event.copied c.id).countP
        Event.isInvocation = 0 := by
      simp [List.countP_eq_zero, Event.isInvocation]
    rw [List.flatMap_cons, List.countP_append, ih, moves, List.countP_append, hcopies,
      List.countP_cons]
    cases plan.invokes id <;> simp [Event.isInvocation, Nat.add_comm]

theorem countP_isCopy_moves (plan : Plan) (g : Graph) (order : List NodeId) :
    (order.flatMap (plan.moves g)).countP Event.isCopy =
      (order.flatMap (plan.delivered g)).length := by
  induction order with
  | nil => rfl
  | cons id order ih =>
    have hcopies : ((plan.delivered g id).map fun c => Event.copied c.id).countP Event.isCopy =
        (plan.delivered g id).length := by
      rw [List.countP_map]
      exact List.countP_eq_length.2 fun _ _ => rfl
    rw [List.flatMap_cons, List.countP_append, ih, moves, List.countP_append, hcopies,
      List.flatMap_cons, List.length_append]
    cases plan.invokes id <;> simp [Event.isCopy]

theorem count_invoked_moves (plan : Plan) (g : Graph) (id other : NodeId) :
    (plan.moves g id).count (.invoked other) =
      if other = id ∧ plan.invokes id = true then 1 else 0 := by
  have hcopies : ((plan.delivered g id).map fun c => Event.copied c.id).count
      (.invoked other) = 0 := by
    apply List.count_eq_zero_of_not_mem
    simp
  rw [moves, List.count_append, hcopies, Nat.zero_add]
  by_cases hother : other = id
  · cases plan.invokes id <;> simp [hother]
  · cases plan.invokes id <;> simp [hother, Ne.symm hother]

end Plan

namespace Run

theorem moves_copy (r : Run) (c : Connection) :
    (r.copy c).moves = r.moves ++
      if (r.graph.delivery? c.toLink).isSome then [.copied c.id] else [] := by
  rw [copy, ← Graph.sourceValue?_eq, Graph.delivery?]
  cases r.graph.sourceValue? c.toLink with
  | none => simp
  | some value =>
    dsimp only
    rw [← Graph.targetPin?]
    split
    next => simp [moves, events, Event.isMove, Event.isCopy]
    next => simp

theorem moves_copyAll (r : Run) (connections : List Connection) :
    (r.copyAll connections).moves = r.moves ++
      (connections.filter fun c => (r.graph.delivery? c.toLink).isSome).map
        fun c => .copied c.id := by
  induction connections generalizing r with
  | nil => simp [copyAll]
  | cons c connections ih =>
    have hsame : (r.copy c).graph.delivery? = r.graph.delivery? := funext (delivery?_copy r c)
    rw [copyAll, List.foldl_cons, ← copyAll, ih, hsame, moves_copy, List.filter_cons]
    split <;> simp

theorem moves_invoke (hlive : r.graph.hasNode id = true) :
    (r.invoke id).moves = r.moves ++ [.invoked id] := by
  obtain ⟨n, hn⟩ := Option.isSome_iff_exists.1 hlive
  have hinvocation : (Event.invoked id).isMove = true := rfl
  rw [invoke, hn]
  simp [moves, events, hinvocation]

theorem moves_settle (hplan : plan.Apt r.graph) (id : NodeId) :
    (r.settle plan id).moves = r.moves ++ plan.moves r.graph id := by
  rw [settle, Plan.moves, Plan.delivered]
  split
  next hinvokes =>
    have hlive : (r.copyAll (plan.inputs id)).graph.hasNode id = true := by
      rw [Graph.hasNode_of_skeleton (skeleton_copyAll r _)]
      exact hplan.live id hinvokes
    rw [moves_invoke hlive, moves_copyAll, List.append_assoc]
  next => rw [moves_copyAll, List.append_nil]

/-- The moves of a pass, if it can be told from a graph along which connections a value comes
at each turn. -/
theorem moves_pass_of_turns (hplan : plan.Apt r.graph)
    (hturn : ∀ before id after, order = before ++ id :: after → ∀ c ∈ plan.inputs id,
      ((r.pass plan before).graph.delivery? c.toLink).isSome = (g.delivery? c.toLink).isSome) :
    (r.pass plan order).moves = r.moves ++ order.flatMap (plan.moves g) := by
  induction order generalizing r with
  | nil => simp [pass]
  | cons head order ih =>
    have hrest : ∀ before id after, order = before ++ id :: after → ∀ c ∈ plan.inputs id,
        (((r.settle plan head).pass plan before).graph.delivery? c.toLink).isSome =
          (g.delivery? c.toLink).isSome := by
      intro before id after hsplit
      exact hturn (head :: before) id after (by rw [hsplit]; rfl)
    have hhead : plan.moves r.graph head = plan.moves g head :=
      Plan.moves_congr (hturn [] head order rfl)
    rw [List.flatMap_cons, ← hhead, pass_cons,
      ih (hplan.of_skeleton (skeleton_settle plan r head)) hrest, moves_settle hplan,
      List.append_assoc]

/-- The moves of a pass in which every node has its turn after its sources. -/
theorem moves_pass (hplan : plan.Apt r.graph)
    (hready : ∀ before id after, order = before ++ id :: after → plan.Ready id after) :
    (r.pass plan order).moves =
      r.moves ++ order.flatMap (plan.moves (r.pass plan order).graph) := by
  apply moves_pass_of_turns hplan
  intro before id after hsplit c hc
  rw [delivery?_at_turn_of_ready hplan hsplit (hready before id after hsplit) hc]

/-- A pass copies into the nodes of its order only. -/
theorem exists_moves_pass (hplan : plan.Apt r.graph) (order : List NodeId) :
    ∃ later, (r.pass plan order).moves = r.moves ++ later ∧
      ∀ k, .copied k ∈ later → ∃ other ∈ order, ∃ c ∈ plan.inputs other, c.id = k := by
  induction order generalizing r with
  | nil => exact ⟨[], (List.append_nil _).symm, nofun⟩
  | cons head order ih =>
    obtain ⟨later, hmoves, hcopied⟩ := ih (hplan.of_skeleton (skeleton_settle plan r head))
    refine ⟨plan.moves r.graph head ++ later, ?_, ?_⟩
    · rw [pass_cons, hmoves, moves_settle hplan, List.append_assoc]
    · intro k hk
      rcases List.mem_append.1 hk with hnow | hlater
      · obtain ⟨c, hc, rfl⟩ := Plan.copied_mem_moves_iff.1 hnow
        exact ⟨head, List.mem_cons_self, c, (List.mem_filter.1 hc).1, rfl⟩
      · obtain ⟨other, hother, hc⟩ := hcopied k hlater
        exact ⟨other, List.mem_cons_of_mem _ hother, hc⟩

/-- In a pass a node is invoked at each of its turns or at none. -/
theorem count_invoked_pass (hplan : plan.Apt r.graph) (order : List NodeId) (id : NodeId) :
    (r.pass plan order).moves.count (.invoked id) =
      r.moves.count (.invoked id) + if plan.invokes id = true then order.count id else 0 := by
  induction order generalizing r with
  | nil => simp [pass]
  | cons head order ih =>
    rw [pass_cons, ih (hplan.of_skeleton (skeleton_settle plan r head)), moves_settle hplan,
      List.count_append, Plan.count_invoked_moves, List.count_cons]
    by_cases hhead : head = id
    · subst hhead
      cases plan.invokes head <;> simp
      omega
    · simp [hhead, Ne.symm hhead]

theorem countP_isInvocation_pass (hplan : plan.Apt r.graph) (order : List NodeId) :
    (r.pass plan order).moves.countP Event.isInvocation =
      r.moves.countP Event.isInvocation + order.countP plan.invokes := by
  induction order generalizing r with
  | nil => rfl
  | cons head order ih =>
    have hone := Plan.countP_isInvocation_moves plan r.graph [head]
    rw [List.flatMap_singleton] at hone
    rw [pass_cons, ih (hplan.of_skeleton (skeleton_settle plan r head)), moves_settle hplan,
      List.countP_append, hone, Nat.add_assoc, ← List.countP_append, List.singleton_append]

/-- A node that is invoked in a pass after its sources has been copied into before, along
each connection that brings a value, and is not copied into again. -/
theorem copied_before_invoked (hplan : plan.Apt r.graph) (hmoves : r.moves = [])
    (hsplit : order = before ++ id :: after) (hdistinct : order.Nodup)
    (hready : plan.Ready id after) (hinvokes : plan.invokes id = true)
    (hkeys : ∀ other, ∀ c ∈ plan.inputs id, ∀ d ∈ plan.inputs other, d.id = c.id → d = c) :
    ∃ earlier later, (r.pass plan order).moves = earlier ++ .invoked id :: later ∧
      ∀ c ∈ plan.inputs id,
        (.copied c.id ∈ earlier ↔ ((r.pass plan order).graph.delivery? c.toLink).isSome) ∧
          .copied c.id ∉ later := by
  obtain ⟨hbefore, hafter⟩ := notMem_of_nodup (hsplit ▸ hdistinct)
  have hplan' : plan.Apt (r.pass plan before).graph :=
    hplan.of_skeleton (skeleton_pass r plan before)
  have hplan'' := hplan'.of_skeleton (skeleton_settle plan (r.pass plan before) id)
  obtain ⟨earlier, hearlier, hearlierCopied⟩ := exists_moves_pass hplan before
  obtain ⟨later, hlater, hlaterCopied⟩ := exists_moves_pass hplan'' after
  rw [hmoves, List.nil_append] at hearlier
  -- at the turns of other nodes nothing is copied into this one
  have hturn : ∀ c ∈ plan.inputs id, ∀ others : List NodeId, id ∉ others →
      ¬ ∃ other ∈ others, ∃ d ∈ plan.inputs other, d.id = c.id := by
    rintro c hc others hothers ⟨other, hother, d, hd, hkey⟩
    have hsame : d = c := hkeys other c hc d hd hkey
    have hid : id = other := by
      rw [← hplan.target_eq id c hc, ← hsame, hplan.target_eq other d hd]
    exact hothers (hid ▸ hother)
  refine ⟨earlier ++ (plan.delivered (r.pass plan before).graph id).map fun c => .copied c.id,
    later, ?_, ?_⟩
  · rw [hsplit, pass_append, pass_cons, hlater, moves_settle hplan', hearlier, Plan.moves,
      if_pos hinvokes]
    simp only [List.append_assoc, List.singleton_append]
  · intro c hc
    refine ⟨?_, fun hcopied => hturn c hc after hafter (hlaterCopied c.id hcopied)⟩
    rw [← delivery?_at_turn_of_ready hplan hsplit hready hc, List.mem_append,
      or_iff_right fun hcopied => hturn c hc before hbefore (hearlierCopied c.id hcopied),
      List.mem_map]
    constructor
    · rintro ⟨d, hd, heq⟩
      obtain ⟨hinput, hsome⟩ := List.mem_filter.1 hd
      rwa [← hkeys id c hc d hinput (Event.copied.inj heq)]
    · exact fun hsome => ⟨c, List.mem_filter.2 ⟨hc, hsome⟩, rfl⟩

/-- The counts of a run are those of its moves. -/
theorem stats_eq_ofEvents_moves (r : Run) : r.stats = .ofEvents r.moves := by
  have hcount : ∀ p : Event → Bool, (∀ e, p e = true → e.isMove = true) →
      r.journal.countP p = r.moves.countP p := by
    intro p hp
    rw [moves, events, List.countP_filter, (List.reverse_perm r.journal).countP_eq]
    apply List.countP_congr
    intro e _
    rw [Bool.and_eq_true]
    exact ⟨fun h => ⟨h, hp e h⟩, fun h => h.1⟩
  rw [stats, Stats.ofEvents, Stats.ofEvents, hcount, hcount]
  · intro e he
    rw [Event.isMove, he, Bool.or_true]
  · intro e he
    rw [Event.isMove, he, Bool.true_or]

end Run

end

end FlowGraph
