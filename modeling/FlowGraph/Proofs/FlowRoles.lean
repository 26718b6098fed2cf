import FlowGraph.Node.Lemmas
import FlowGraph.Proofs.Admission
import FlowGraph.Proofs.Operation
import FlowGraph.Proofs.Removal

/-!
# Flow roles name the pins that they need

A declaration is accepted exactly if every pin that plays a part in its flow role exists on
its side and has the right class; otherwise the first part that fails is reported.  The node
has the declared pins and starts with the declared values.  No call on a graph changes pins or
flow roles of a node that is there, so that in every graph the pins that a flow role names
exist, whatever has been done before.
-/

namespace FlowGraph

/-- The pin that plays a part in a flow role: its side, its index and its class. -/
inductive Flow.Plays : Flow → FlowPart → PinDirection → Nat → PinClass → Prop
  | condition {condition onTrue onFalse : Nat} :
      Plays (.branch condition onTrue onFalse) .condition .input condition .data
  | onTrue {condition onTrue onFalse : Nat} :
      Plays (.branch condition onTrue onFalse) .onTrue .output onTrue .exec
  | onFalse {condition onTrue onFalse : Nat} :
      Plays (.branch condition onTrue onFalse) .onFalse .output onFalse .exec
  | first {first limit index body completed : Nat} :
      Plays (.loop first limit index body completed) .first .input first .data
  | limit {first limit index body completed : Nat} :
      Plays (.loop first limit index body completed) .limit .input limit .data
  | index {first limit index body completed : Nat} :
      Plays (.loop first limit index body completed) .index .output index .data
  | body {first limit index body completed : Nat} :
      Plays (.loop first limit index body completed) .body .output body .exec
  | completed {first limit index body completed : Nat} :
      Plays (.loop first limit index body completed) .completed .output completed .exec

namespace FlowPart

/-- All parts, in the order in which they are checked. -/
def inOrder : List FlowPart :=
  [.condition, .onTrue, .onFalse, .first, .limit, .index, .body, .completed]

/-- A part is checked before another. -/
def Before (a b : FlowPart) : Prop := inOrder.idxOf a < inOrder.idxOf b

instance (a b : FlowPart) : Decidable (a.Before b) :=
  inferInstanceAs (Decidable (inOrder.idxOf a < inOrder.idxOf b))

end FlowPart

/-- The values in the slots of one side. -/
def Memory.values (m : Memory) : PinDirection → Store Nat
  | .input => m.inputs
  | .output => m.outputs

namespace NodeSpec

/-- Every pin that plays a part exists on its side and has the class that it needs. -/
def MeetsFlow (spec : NodeSpec) : Prop :=
  ∀ part side index cls, spec.flow.Plays part side index cls →
    ∃ declared, (spec.pins side)[index]? = some declared ∧ declared.cls = cls

/-- How a part fails. -/
inductive Fails (spec : NodeSpec) : FlowPart → SpecError → Prop
  | missingPin {part : FlowPart} {side : PinDirection} {index : Nat} {cls : PinClass}
      (hplays : spec.flow.Plays part side index cls)
      (hmissing : (spec.pins side).length ≤ index) :
      Fails spec part (.missingPin part index side)
  | wrongClass {part : FlowPart} {side : PinDirection} {index : Nat} {cls : PinClass}
      {declared : PinSpec} (hplays : spec.flow.Plays part side index cls)
      (hdeclared : (spec.pins side)[index]? = some declared) (hcls : declared.cls ≠ cls) :
      Fails spec part (.wrongClass part index cls)

/-- How the first part fails that fails. -/
def FailsFirst (spec : NodeSpec) (error : SpecError) : Prop :=
  ∃ part, spec.Fails part error ∧
    ∀ earlier : FlowPart, earlier.Before part → ∀ other, ¬ spec.Fails earlier other

end NodeSpec

namespace Node

/-- The pins on one side. -/
def pins (n : Node) : PinDirection → List Pin
  | .input => n.inputs
  | .output => n.outputs

/-- A node has the pins that a declaration names and no others, and holds the values that
the declaration gives to its data pins and no others. -/
structure Begins (n : Node) (spec : NodeSpec) : Prop where
  length_pins : ∀ side, (n.pins side).length = (spec.pins side).length
  pin_eq : ∀ side (index : Nat) (pin : Pin), (n.pins side)[index]? = some pin →
    pin.index = index ∧ pin.direction = side ∧
      ∃ declared : PinSpec, (spec.pins side)[index]? = some declared ∧
        pin.name = declared.name ∧ pin.cls = declared.cls
  holds_iff : ∀ side (index : Nat) (value : Value),
    (n.memory.values side).get? index = some value ↔
      ∃ declared : PinSpec, (spec.pins side)[index]? = some declared ∧
        declared.cls = .data ∧ declared.value = some value

/-- Every pin that plays a part in the flow role exists on its side and has the class that it
needs. -/
def MeetsFlow (n : Node) : Prop :=
  ∀ part side index cls, n.flow.Plays part side index cls →
    ∃ pin, (n.pins side)[index]? = some pin ∧ pin.direction = side ∧ pin.cls = cls

end Node

/-! ## Checking a declaration -/

namespace Flow

variable {flow : Flow} {part : FlowPart} {side : PinDirection} {index : Nat} {cls : PinClass}

/-- The requirements of a flow role are its parts with the pins that play them. -/
theorem plays_iff_mem_requirements :
    flow.Plays part side index cls ↔ ⟨part, index, side, cls⟩ ∈ flow.requirements := by
  constructor
  · intro h
    cases h <;> simp [requirements]
  · intro h
    cases flow with
    | sequence => cases h
    | branch condition onTrue onFalse =>
      simp only [requirements, List.mem_cons, List.not_mem_nil, or_false] at h
      rcases h with h | h | h <;> cases h
      · exact .condition
      · exact .onTrue
      · exact .onFalse
    | loop first limit index body completed =>
      simp only [requirements, List.mem_cons, List.not_mem_nil, or_false] at h
      rcases h with h | h | h | h | h <;> cases h
      · exact .first
      · exact .limit
      · exact .index
      · exact .body
      · exact .completed

/-- A part is played by one pin. -/
theorem Plays.unique {side' : PinDirection} {index' : Nat} {cls' : PinClass}
    (h : flow.Plays part side index cls) (h' : flow.Plays part side' index' cls') :
    side' = side ∧ index' = index ∧ cls' = cls := by
  cases h <;> cases h' <;> exact ⟨rfl, rfl, rfl⟩

theorem pairwise_before_requirements (flow : Flow) :
    flow.requirements.Pairwise fun r q => r.part.Before q.part := by
  cases flow with
  | sequence => exact .nil
  | branch =>
    apply List.Pairwise.of_map FlowRequirement.part fun _ _ h => h
    exact (by decide : [FlowPart.condition, .onTrue, .onFalse].Pairwise FlowPart.Before)
  | loop =>
    apply List.Pairwise.of_map FlowRequirement.part fun _ _ h => h
    exact (by decide :
      [FlowPart.first, .limit, .index, .body, .completed].Pairwise FlowPart.Before)

theorem before_of_split {before after : List FlowRequirement} {r : FlowRequirement}
    (hsplit : flow.requirements = before ++ r :: after) :
    (∀ q ∈ before, q.part.Before r.part) ∧ ∀ q ∈ after, r.part.Before q.part := by
  have hpairwise := flow.pairwise_before_requirements
  rw [hsplit] at hpairwise
  obtain ⟨-, hafter, hbefore⟩ := List.pairwise_append.1 hpairwise
  exact ⟨fun q hq => hbefore q hq r List.mem_cons_self, (List.pairwise_cons.1 hafter).1⟩

end Flow

namespace NodeSpec

variable {spec : NodeSpec} {part : FlowPart} {side : PinDirection} {index : Nat}
  {cls : PinClass} {error : SpecError}

theorem Fails.exists_plays (h : spec.Fails part error) :
    ∃ side index cls, spec.flow.Plays part side index cls := by
  cases h with
  | missingPin hplays _ => exact ⟨_, _, _, hplays⟩
  | wrongClass hplays _ _ => exact ⟨_, _, _, hplays⟩

theorem violation?_eq_some_iff (hplays : spec.flow.Plays part side index cls) :
    spec.violation? ⟨part, index, side, cls⟩ = some error ↔ spec.Fails part error := by
  rw [violation?]
  dsimp only
  constructor
  · intro h
    split at h
    next hnone =>
      cases h
      exact .missingPin hplays (List.getElem?_eq_none_iff.1 hnone)
    next declared hdeclared =>
      split at h
      · cases h
      · cases h
        exact .wrongClass hplays hdeclared ‹_›
  · intro h
    cases h with
    | missingPin hplays' hmissing =>
      obtain ⟨rfl, rfl, rfl⟩ := hplays.unique hplays'
      rw [List.getElem?_eq_none_iff.2 hmissing]
    | wrongClass hplays' hdeclared hcls =>
      obtain ⟨rfl, rfl, rfl⟩ := hplays.unique hplays'
      rw [hdeclared]
      exact if_neg hcls

theorem violation?_eq_none_iff {r : FlowRequirement} :
    spec.violation? r = none ↔
      ∃ declared, (spec.pins r.direction)[r.index]? = some declared ∧ declared.cls = r.cls := by
  rw [violation?]
  split
  next hnone => simp [hnone]
  next declared hdeclared =>
    rw [hdeclared]
    split
    next hcls => exact iff_of_true rfl ⟨declared, rfl, hcls⟩
    next hcls =>
      refine iff_of_false nofun ?_
      rintro ⟨_, ⟨⟩, hsame⟩
      exact hcls hsame

theorem fault?_eq_none_iff : spec.fault? = none ↔ spec.MeetsFlow := by
  rw [fault?, List.findSome?_eq_none_iff]
  constructor
  · intro h part side index cls hplays
    exact violation?_eq_none_iff.1 (h _ (Flow.plays_iff_mem_requirements.1 hplays))
  · intro h r hr
    exact violation?_eq_none_iff.2 (h _ _ _ _ (Flow.plays_iff_mem_requirements.2 hr))

theorem fault?_eq_some_iff : spec.fault? = some error ↔ spec.FailsFirst error := by
  rw [fault?, List.findSome?_eq_some_iff]
  constructor
  · rintro ⟨before, r, after, hsplit, hviolation, hkept⟩
    have hplaysr : spec.flow.Plays r.part r.direction r.index r.cls := by
      rw [Flow.plays_iff_mem_requirements, hsplit]
      exact List.mem_append_right _ List.mem_cons_self
    refine ⟨r.part, (violation?_eq_some_iff hplaysr).1 hviolation, ?_⟩
    intro earlier hearlier other hfails
    obtain ⟨side, index, cls, hplays⟩ := hfails.exists_plays
    have hq := Flow.plays_iff_mem_requirements.1 hplays
    rw [hsplit] at hq
    -- A part that is checked earlier can only stand in the part of the list that was passed.
    rcases List.mem_append.1 hq with hbefore | hafter
    · have hnone := hkept _ hbefore
      rw [(violation?_eq_some_iff hplays).2 hfails] at hnone
      cases hnone
    · rcases List.mem_cons.1 hafter with rfl | hafter
      · exact Nat.lt_irrefl _ hearlier
      · exact Nat.lt_asymm hearlier ((Flow.before_of_split hsplit).2 _ hafter)
  · rintro ⟨part, hfails, hfirst⟩
    obtain ⟨side, index, cls, hplays⟩ := hfails.exists_plays
    obtain ⟨before, after, hsplit⟩ :=
      List.append_of_mem (Flow.plays_iff_mem_requirements.1 hplays)
    refine ⟨before, _, after, hsplit, (violation?_eq_some_iff hplays).2 hfails, ?_⟩
    intro q hq
    have hplaysq : spec.flow.Plays q.part q.direction q.index q.cls := by
      rw [Flow.plays_iff_mem_requirements, hsplit]
      exact List.mem_append_left _ hq
    rw [Option.eq_none_iff_forall_ne_some]
    intro other hother
    have hearlier := (Flow.before_of_split hsplit).1 q hq
    exact hfirst q.part hearlier other ((violation?_eq_some_iff hplaysq).1 hother)

end NodeSpec

/-! ## Building a node -/

namespace Node

variable {id : NodeId} {spec : NodeSpec} {n m : Node}

theorem ofSpec_eq_ok_iff : ofSpec id spec = .ok n ↔ spec.MeetsFlow ∧ n = build id spec := by
  rw [ofSpec, ← NodeSpec.fault?_eq_none_iff]
  split
  next error hfault => simp [hfault]
  next hfault => simp [hfault, eq_comm]

theorem ofSpec_eq_error_iff {error : SpecError} :
    ofSpec id spec = .error error ↔ spec.FailsFirst error := by
  rw [ofSpec, ← NodeSpec.fault?_eq_some_iff]
  split
  next other hfault => simp [hfault]
  next hfault => simp [hfault]

theorem pins_build (id : NodeId) (spec : NodeSpec) (side : PinDirection) :
    (build id spec).pins side = (spec.pins side).mapIdx fun index declared =>
      Pin.ofSpec index side declared := by
  cases side <;> rfl

theorem values_build (id : NodeId) (spec : NodeSpec) (side : PinDirection) :
    (build id spec).memory.values side = initialValues (spec.pins side) := by
  cases side <;> rfl

theorem begins_build (id : NodeId) (spec : NodeSpec) : (build id spec).Begins spec where
  length_pins side := by rw [pins_build, List.length_mapIdx]
  pin_eq side index pin hpin := by
    rw [pins_build, List.getElem?_mapIdx] at hpin
    obtain ⟨declared, hdeclared, rfl⟩ := Option.map_eq_some_iff.1 hpin
    exact ⟨rfl, rfl, declared, hdeclared, rfl, rfl⟩
  holds_iff side index value := by rw [values_build, get?_initialValues]

theorem meetsFlow_build (h : spec.MeetsFlow) : (build id spec).MeetsFlow := by
  intro part side index cls hplays
  obtain ⟨declared, hdeclared, hcls⟩ := h part side index cls hplays
  refine ⟨Pin.ofSpec index side declared, ?_, rfl, hcls⟩
  rw [pins_build, List.getElem?_mapIdx, hdeclared, Option.map_some]

/-- The node without what calls can change: title, category, memory and mark. -/
def shape (n : Node) : Node :=
  { n with title := "", category := "", memory := {}, active := false }

theorem MeetsFlow.of_shape (h : m.MeetsFlow) (hshape : m.shape = n.shape) : n.MeetsFlow := by
  have hpins : ∀ n : Node, n.shape.pins = n.pins := by
    intro n
    funext side
    cases side <;> rfl
  have hflow : ∀ n : Node, n.shape.flow = n.flow := fun _ => rfl
  rw [MeetsFlow, ← hpins, ← hflow, ← hshape]
  exact h

/-- The node is new, or one of its shape is in the graph. -/
def Stems (n : Node) (g : Graph) : Prop :=
  (∃ id spec, ofSpec id spec = .ok n) ∨ ∃ m ∈ g.nodes.rows, m.shape = n.shape

end Node

/-! ## Runs of operations -/

namespace Graph

variable {g g' : Graph} {n : Node} {operation : Operation}
  {permitted : Graph → Operation → Prop}

theorem stems_of_mem (hn : n ∈ g.nodes.rows) : n.Stems g :=
  .inr ⟨n, hn, rfl⟩

theorem stems_of_skeleton (hskeleton : g'.skeleton = g.skeleton) (hn : n ∈ g'.nodes.rows) :
    n.Stems g := by
  have hrows : g'.nodes.rows.map Node.skeleton = g.nodes.rows.map Node.skeleton :=
    congrArg (fun g : Graph => g.nodes.rows) hskeleton
  have hmem : n.skeleton ∈ g.nodes.rows.map Node.skeleton := by
    rw [← hrows]
    exact List.mem_map_of_mem hn
  obtain ⟨m, hm, heq⟩ := List.mem_map.1 hmem
  have hshape : m.skeleton.shape = n.skeleton.shape := congrArg Node.shape heq
  exact .inr ⟨m, hm, hshape⟩

theorem stems_modify {id : NodeId} {f : Node → Node}
    (hn : n ∈ g.nodes.rows.map fun m => if m.id = id then f m else m)
    (hshape : ∀ n, (f n).shape = n.shape) : n.Stems g := by
  obtain ⟨m, hm, rfl⟩ := List.mem_map.1 hn
  refine .inr ⟨m, hm, ?_⟩
  split
  · exact (hshape m).symm
  · rfl

theorem stems_addNode {spec : NodeSpec} (hn : n ∈ (g.addNode spec).graph.nodes.rows) :
    n.Stems g := by
  rw [addNode] at hn
  dsimp only at hn
  split at hn
  next => exact stems_of_mem hn
  next node hnode =>
    rcases Table.mem_of_mem_put hn with rfl | hold
    · exact .inl ⟨_, spec, hnode⟩
    · exact stems_of_mem hold

theorem stems_removeNode {id : NodeId} (hn : n ∈ (g.removeNode id).graph.nodes.rows) :
    n.Stems g := by
  rw [removeNode] at hn
  split at hn
  next =>
    have hleft : n ∈ (g.disconnectNode id).graph.nodes.rows := (List.mem_filter.1 hn).1
    exact stems_of_skeleton (g := g.without _) (skeleton_disconnectWhere g _) hleft
  next => exact stems_of_mem hn

/-- One step: no call changes pins or flow role of a node. -/
theorem stems_apply (hn : n ∈ (operation.apply g).nodes.rows) : n.Stems g := by
  cases operation with
  | addNode spec => exact stems_addNode hn
  | spawn catalog key =>
    rw [Operation.apply, Catalog.spawn] at hn
    split at hn
    · exact stems_of_mem hn
    · exact stems_addNode hn
  | connect id l =>
    rw [Operation.apply] at hn
    cases hcheck : g.check l with
    | error refusal =>
      rw [(connect_of_refused id hcheck).1] at hn
      exact stems_of_mem hn
    | ok => exact stems_of_skeleton (g := g.restore _) (connect_of_admitted id hcheck).1 hn
  | restore c => exact stems_of_mem hn
  | disconnect id => exact stems_of_skeleton (g := g.without _) (skeleton_disconnect g id) hn
  | disconnectNode node =>
    exact stems_of_skeleton (g := g.without _) (skeleton_disconnectWhere g _) hn
  | disconnectPin node pin side =>
    exact stems_of_skeleton (g := g.without _) (skeleton_disconnectWhere g _) hn
  | removeNode node => exact stems_removeNode hn
  | validate => exact stems_of_mem hn
  | cleanup => exact stems_of_skeleton (g := g.without _) (skeleton_cleanup g) hn
  | knowOrder => exact stems_of_skeleton (skeleton_knowOrder g) hn
  | refreshPure => exact stems_of_skeleton (skeleton_sweep g true) hn
  | refreshAll => exact stems_of_skeleton (skeleton_sweep g false) hn
  | refreshConnection id => exact stems_of_skeleton (Run.skeleton_refreshConnection _ id) hn
  | refreshInputs node => exact stems_of_skeleton (Run.skeleton_refreshInputs _ node) hn
  | perform command => exact stems_of_skeleton (skeleton_perform g command) hn
  | execute start => exact stems_of_skeleton (skeleton_execute g start) hn
  | fire title => exact stems_of_skeleton (skeleton_fire g title) hn
  | fireStart => exact stems_of_skeleton (skeleton_fire g _) hn
  | fireTick => exact stems_of_skeleton (skeleton_fire g _) hn
  | rename name => exact stems_of_mem hn
  | setSettings settings => exact stems_of_mem hn
  | setTitle node title => exact stems_modify hn fun _ => rfl
  | setCategory node category => exact stems_modify hn fun _ => rfl
  | setInput node pin value => exact stems_modify hn fun _ => rfl
  | setOutput node pin value => exact stems_modify hn fun _ => rfl
  | invoke node => exact stems_of_skeleton (Run.skeleton_invoke _ node) hn

/-- Whatever is done, every node keeps the pins that its flow role names. -/
theorem meetsFlow_of_reachable (h : Reachable permitted g) :
    ∀ n ∈ g.nodes.rows, n.MeetsFlow := by
  induction h with
  | empty name settings => exact nofun
  | step operation _ _ ih =>
    intro n hn
    rcases stems_apply hn with ⟨id, spec, hbuilt⟩ | ⟨m, hm, hshape⟩
    · obtain ⟨hmeets, rfl⟩ := Node.ofSpec_eq_ok_iff.1 hbuilt
      exact Node.meetsFlow_build hmeets
    · exact (ih m hm).of_shape hshape

/-- A declaration makes a node exactly if its flow role names pins that it declares, the
first part that fails is reported otherwise, the node begins as declared, and in every graph
that arises, whatever the calls, all flow roles name pins that exist and have the right
class. -/
theorem flow_roles_valid :
    (∀ id spec, (∃ n, Node.ofSpec id spec = .ok n) ↔ spec.MeetsFlow) ∧
    (∀ id spec error, Node.ofSpec id spec = .error error ↔ spec.FailsFirst error) ∧
    (∀ id spec n, Node.ofSpec id spec = .ok n → n.Begins spec) ∧
    ∀ g, Reachable (fun _ _ => True) g → ∀ n ∈ g.nodes.rows, n.MeetsFlow := by
  refine ⟨fun id spec => ?_, fun _ _ _ => Node.ofSpec_eq_error_iff, fun id spec n hbuilt => ?_,
    fun g h => meetsFlow_of_reachable h⟩
  · simp only [Node.ofSpec_eq_ok_iff, exists_and_left, exists_eq, and_true]
  · obtain ⟨_, rfl⟩ := Node.ofSpec_eq_ok_iff.1 hbuilt
    exact Node.begins_build id spec

/-- A loop without its limit and with a value in the place of its body is refused for the
limit.  The loop and the choice of a graph with unchecked connections keep their pins. -/
theorem flow_roles_valid_tangled :
    NodeSpec.FailsFirst
        { title := "Count"
          inputs := [.exec, .data "Start" (.int 0)]
          outputs := [.data "Loop Body" (.int 0), .exec "Completed", .data "Index" (.int 0)]
          flow := .loop 1 2 2 0 1 }
        (.missingPin .limit 2 .input) ∧
      Reachable (fun _ _ => True) tangled ∧
      tangled.nodes.rows.map Node.flow = [.sequence, .loop 1 2 2 0 1, .branch 1 0 1] ∧
      ∀ n ∈ tangled.nodes.rows, n.MeetsFlow := by
  have hreachable : Reachable (fun _ _ => True) tangled :=
    .foldl_apply (.foldl_apply (.empty _ _) fun _ _ _ => trivial) fun _ _ _ => trivial
  refine ⟨(flow_roles_valid.2.1 ⟨0⟩ _ _).1 rfl, hreachable, by decide, ?_⟩
  exact flow_roles_valid.2.2.2 tangled hreachable

end Graph

end FlowGraph
