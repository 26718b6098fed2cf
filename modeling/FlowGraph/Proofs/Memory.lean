import FlowGraph.Proofs.Skeleton
import FlowGraph.Store.Lemmas
import Mathlib.Data.List.Pairwise

/-!
# What invoking and copying change

An invocation changes what one node remembers, and nothing else.  A copy changes one input
slot of one node: the value that the source holds is put into it, if there is a value and
there is such a slot.  Outputs are changed by invocations only, so that of several copies
in a row each finds the values that the first one found.
-/

namespace FlowGraph

/-- The memory with a value put into an input slot, if there is a value. -/
def Memory.receive (m : Memory) (pin : Nat) : Option Value → Memory
  | none => m
  | some value => { m with inputs := m.inputs.set pin value }

/-- The memory after values have come in along connections, one after the other. -/
def Memory.receiveAll (m : Memory) (deliver : Link → Option Value)
    (connections : List Connection) : Memory :=
  connections.foldl (fun m c => m.receive c.targetPin (deliver c.toLink)) m

/-- The value that connections bring to an input slot: the last of those that they deliver
there, one after the other. -/
def Memory.arriving? (deliver : Link → Option Value) (connections : List Connection) (pin : Nat) :
    Option Value :=
  (connections.filterMap fun c => if c.targetPin = pin then deliver c.toLink else none).getLast?

/-- The node with another memory. -/
def Node.remember (n : Node) (m : Memory) : Node := { n with memory := m }

namespace Graph

/-- What is remembered at a node. -/
def memory? (g : Graph) (id : NodeId) : Option Memory := (g.node? id).map Node.memory

/-- Whether a node is marked. -/
def active? (g : Graph) (id : NodeId) : Option Bool := (g.node? id).map Node.active

/-- The value at the source of a link. -/
def sourceValue? (g : Graph) (l : Link) : Option Value :=
  (g.memory? l.source).bind (·.outputs.get? l.sourcePin)

/-- The value in the input slot at the target of a link. -/
def targetValue? (g : Graph) (l : Link) : Option Value :=
  (g.memory? l.target).bind (·.inputs.get? l.targetPin)

/-- The value that a live node holds under the index of an input. -/
def inputValue? (g : Graph) (id : NodeId) (index : Nat) : Option Value :=
  (g.memory? id).bind (·.inputs.get? index)

/-- The value that a live node holds in an output slot. -/
def outputValue? (g : Graph) (id : NodeId) (index : Nat) : Option Value :=
  (g.memory? id).bind (·.outputs.get? index)

/-- The value that a copy along a link puts into the slot at the target. -/
def delivery? (g : Graph) (l : Link) : Option Value :=
  if (g.targetPin? l).isSome then g.sourceValue? l else none

/-- What the behavior of a node makes of a memory. -/
def react (g : Graph) (id : NodeId) (m : Memory) : Memory :=
  match g.node? id with
  | none => m
  | some n => (n.remember m).react.1

end Graph

/-! ## Values coming in -/

namespace Memory

variable {m : Memory} {deliver deliver' : Link → Option Value} {connections : List Connection}
  {c : Connection} {pin : Nat}

@[simp]
theorem outputs_receive (m : Memory) (pin : Nat) (value : Option Value) :
    (m.receive pin value).outputs = m.outputs := by
  cases value <;> rfl

@[simp]
theorem locals_receive (m : Memory) (pin : Nat) (value : Option Value) :
    (m.receive pin value).locals = m.locals := by
  cases value <;> rfl

theorem get?_receive (m : Memory) (pin other : Nat) (value : Option Value) :
    (m.receive pin value).inputs.get? other =
      if other = pin then value <|> m.inputs.get? other else m.inputs.get? other := by
  cases value with
  | none => simp [receive]
  | some value => simp [receive]

/-- A value that is there already makes no difference when it comes in. -/
theorem receive_eq_self {value : Option Value}
    (h : ∀ v, value = some v → m.inputs.get? pin = some v) : m.receive pin value = m := by
  cases value with
  | none => rfl
  | some v =>
    have hinputs : m.inputs.set pin v = m.inputs := by
      apply Store.ext_get?
      intro key
      rw [Store.get?_set]
      split
      next hkey => rw [hkey, h v rfl]
      next => rfl
    rw [receive, hinputs]

@[simp]
theorem outputs_receiveAll (m : Memory) (deliver : Link → Option Value)
    (connections : List Connection) : (m.receiveAll deliver connections).outputs = m.outputs := by
  induction connections generalizing m with
  | nil => rfl
  | cons c connections ih => exact (ih _).trans (outputs_receive m _ _)

@[simp]
theorem locals_receiveAll (m : Memory) (deliver : Link → Option Value)
    (connections : List Connection) : (m.receiveAll deliver connections).locals = m.locals := by
  induction connections generalizing m with
  | nil => rfl
  | cons c connections ih => exact (ih _).trans (locals_receive m _ _)

theorem receiveAll_congr (h : ∀ c ∈ connections, deliver c.toLink = deliver' c.toLink) :
    m.receiveAll deliver connections = m.receiveAll deliver' connections := by
  induction connections generalizing m with
  | nil => rfl
  | cons c connections ih =>
    rw [receiveAll, List.foldl_cons, h c List.mem_cons_self]
    exact ih fun d hd => h d (List.mem_cons_of_mem c hd)

/-- A slot holds what arrives there last, and keeps what it holds if nothing arrives. -/
theorem get?_receiveAll (m : Memory) (deliver : Link → Option Value)
    (connections : List Connection) (pin : Nat) :
    (m.receiveAll deliver connections).inputs.get? pin =
      (arriving? deliver connections pin).or (m.inputs.get? pin) := by
  induction connections generalizing m with
  | nil => rfl
  | cons c connections ih =>
    rw [receiveAll, List.foldl_cons, ← receiveAll, ih, get?_receive, arriving?, arriving?,
      List.filterMap_cons]
    by_cases hpin : c.targetPin = pin
    · rw [if_pos hpin, if_pos hpin.symm]
      cases deliver c.toLink with
      | none => rfl
      | some value =>
        dsimp only
        rw [List.getLast?_cons]
        cases (connections.filterMap fun c =>
          if c.targetPin = pin then deliver c.toLink else none).getLast? <;> rfl
    · rw [if_neg hpin, if_neg (Ne.symm hpin)]

theorem arriving?_eq_none
    (h : ∀ c ∈ connections, c.targetPin = pin → deliver c.toLink = none) :
    arriving? deliver connections pin = none := by
  rw [arriving?, List.getLast?_eq_none_iff, List.filterMap_eq_nil_iff]
  intro c hc
  split
  next hpin => exact h c hc hpin
  next => rfl

/-- If some connection brings a value to a slot, then what arrives there has been brought by
one of them. -/
theorem exists_arriving (hc : c ∈ connections) {value : Value}
    (hvalue : deliver c.toLink = some value) :
    ∃ d ∈ connections, d.targetPin = c.targetPin ∧ ∃ other, deliver d.toLink = some other ∧
      arriving? deliver connections c.targetPin = some other := by
  have hbrought : value ∈ connections.filterMap fun d =>
      if d.targetPin = c.targetPin then deliver d.toLink else none :=
    List.mem_filterMap.2 ⟨c, hc, by rw [if_pos rfl, hvalue]⟩
  have hlast := List.getLast?_eq_some_getLast (List.ne_nil_of_mem hbrought)
  obtain ⟨d, hd, hother⟩ := List.mem_filterMap.1 (List.mem_of_getLast? hlast)
  split at hother
  next hpin => exact ⟨d, hd, hpin, _, hother, hlast⟩
  next => cases hother

/-- If one connection brings a value and no other brings a different one, that arrives. -/
theorem arriving?_eq_some (hc : c ∈ connections) {value : Value}
    (hvalue : deliver c.toLink = some value)
    (hothers : ∀ d ∈ connections, d.targetPin = c.targetPin → ∀ other,
      deliver d.toLink = some other → other = value) :
    arriving? deliver connections c.targetPin = some value := by
  obtain ⟨d, hd, hpin, other, hother, hlast⟩ := exists_arriving hc hvalue
  rw [hlast, hothers d hd hpin other hother]

theorem arriving?_congr
    (h : ∀ c ∈ connections, c.targetPin = pin → deliver c.toLink = deliver' c.toLink) :
    arriving? deliver connections pin = arriving? deliver' connections pin := by
  rw [arriving?, arriving?]
  congr 1
  apply List.filterMap_congr
  intro c hc
  split
  next hpin => exact h c hc hpin
  next => rfl

/-- A slot that no value comes into keeps what it holds. -/
theorem get?_receiveAll_of_none
    (h : ∀ c ∈ connections, c.targetPin = pin → deliver c.toLink = none) :
    (m.receiveAll deliver connections).inputs.get? pin = m.inputs.get? pin := by
  rw [get?_receiveAll, arriving?_eq_none h, Option.none_or]

/-- Where connections come into different slots, each slot holds what came into it, and keeps
what it holds if nothing did. -/
theorem get?_receiveAll_of_mem
    (hdistinct : connections.Pairwise fun a b => a.targetPin ≠ b.targetPin)
    (hc : c ∈ connections) :
    (m.receiveAll deliver connections).inputs.get? c.targetPin =
      (deliver c.toLink).or (m.inputs.get? c.targetPin) := by
  have hsymm : Std.Symm fun a b : Connection => a.targetPin ≠ b.targetPin :=
    ⟨fun _ _ => Ne.symm⟩
  have honly : ∀ d ∈ connections, d.targetPin = c.targetPin → d = c := by
    intro d hd hpin
    by_contra hne
    exact hdistinct.forall hd hc hne hpin
  rw [get?_receiveAll]
  congr 1
  cases hvalue : deliver c.toLink with
  | none => exact arriving?_eq_none fun d hd hpin => honly d hd hpin ▸ hvalue
  | some value =>
    apply arriving?_eq_some hc hvalue
    intro d hd hpin other hother
    rw [honly d hd hpin, hvalue] at hother
    exact (Option.some.inj hother).symm

end Memory

/-! ## Memory and skeleton -/

/-- The answer of a node is decided by its skeleton and its memory. -/
theorem Node.react_congr {n n' : Node} (hskeleton : n.skeleton = n'.skeleton)
    (hmemory : n.memory = n'.memory) : n.react = n'.react := by
  have hread : ∀ n : Node, n.react = (n.skeleton.remember n.memory).react := fun _ => rfl
  rw [hread, hskeleton, hmemory, ← hread]

namespace Graph

variable {g g' : Graph} {id : NodeId} {l : Link}

theorem react_skeleton (g : Graph) (id : NodeId) (m : Memory) :
    g.skeleton.react id m = g.react id m := by
  rw [react, node?_skeleton, react]
  cases g.node? id <;> rfl

theorem react_of_skeleton (h : g.skeleton = g'.skeleton) (id : NodeId) (m : Memory) :
    g.react id m = g'.react id m := by
  rw [← react_skeleton g, h, react_skeleton]

theorem react_of_no_behavior (h : ∀ n ∈ g.node? id, n.behavior = none) (m : Memory) :
    g.react id m = m := by
  rw [react]
  split
  next => rfl
  next n hn =>
    have hnone : (n.remember m).behavior = none := h n hn
    rw [Node.react, hnone]
    rfl

theorem isSome_memory? (g : Graph) (id : NodeId) : (g.memory? id).isSome = g.hasNode id := by
  rw [memory?, Option.isSome_map, hasNode]

theorem sourceValue?_eq (g : Graph) (l : Link) :
    g.sourceValue? l = (g.node? l.source).bind (·.memory.outputs.get? l.sourcePin) := by
  rw [sourceValue?, memory?, Option.bind_map]
  rfl

theorem sourceValue?_congr
    (h : (g.memory? l.source).map Memory.outputs = (g'.memory? l.source).map Memory.outputs) :
    g.sourceValue? l = g'.sourceValue? l := by
  have hread : ∀ g : Graph,
      g.sourceValue? l = ((g.memory? l.source).map Memory.outputs).bind (·.get? l.sourcePin) := by
    intro g
    rw [sourceValue?, Option.bind_map]
    rfl
  rw [hread, h, ← hread]

theorem outputValue?_congr
    (h : (g'.memory? id).map Memory.outputs = (g.memory? id).map Memory.outputs) (index : Nat) :
    g'.outputValue? id index = g.outputValue? id index :=
  sourceValue?_congr (l := ⟨id, index, id, 0⟩) h

/-- Stores of two nodes that are both there or both missing are the same if every slot is. -/
theorem map_memory?_ext (hlive : g.hasNode id = g'.hasNode id) (f : Memory → Store Nat)
    (h : ∀ pin, (g.memory? id).bind (fun m => (f m).get? pin) =
      (g'.memory? id).bind fun m => (f m).get? pin) :
    (g.memory? id).map f = (g'.memory? id).map f := by
  rw [← isSome_memory?, ← isSome_memory?] at hlive
  revert hlive h
  cases g.memory? id <;> cases g'.memory? id <;> intro hlive h
  · rfl
  · cases hlive
  · cases hlive
  · exact congrArg some (Store.ext_get? h)

/-- All that a node remembers is the same if its three stores are. -/
theorem memory?_ext
    (hinputs : (g.memory? id).map Memory.inputs = (g'.memory? id).map Memory.inputs)
    (houtputs : (g.memory? id).map Memory.outputs = (g'.memory? id).map Memory.outputs)
    (hlocals : (g.memory? id).map Memory.locals = (g'.memory? id).map Memory.locals) :
    g.memory? id = g'.memory? id := by
  revert hinputs houtputs hlocals
  cases g.memory? id with
  | none => cases g'.memory? id <;> simp
  | some m =>
    cases g'.memory? id with
    | none => simp
    | some m' =>
      simp only [Option.map_some, Option.some_inj]
      intro hinputs houtputs hlocals
      cases m
      cases m'
      cases hinputs
      cases houtputs
      cases hlocals
      rfl

theorem delivery?_congr (hskeleton : g.skeleton = g'.skeleton)
    (h : (g.memory? l.source).map Memory.outputs = (g'.memory? l.source).map Memory.outputs) :
    g.delivery? l = g'.delivery? l := by
  rw [delivery?, delivery?, targetPin?_of_skeleton hskeleton, sourceValue?_congr h]

/-- Along a link with both its pins a copy brings what the source holds. -/
theorem Fits.delivery?_eq (h : g.Fits l) : g.delivery? l = g.sourceValue? l := by
  obtain ⟨_, -, targetPin, htarget, -⟩ := h
  rw [delivery?, Option.mem_def.1 htarget]
  rfl

theorem node?_modify (g : Graph) (id other : NodeId) (f : Node → Node)
    (hid : ∀ n, (f n).id = n.id) :
    { g with nodes := g.nodes.modify id f hid }.node? other =
      if other = id then (g.node? other).map f else g.node? other :=
  Table.find?_modify g.nodes id other f hid

theorem memory?_modify (g : Graph) (id other : NodeId) (f : Node → Node) (f' : Memory → Memory)
    (hid : ∀ n, (f n).id = n.id) (hmemory : ∀ n, (f n).memory = f' n.memory) :
    { g with nodes := g.nodes.modify id f hid }.memory? other =
      if other = id then (g.memory? other).map f' else g.memory? other := by
  have hcomm : Node.memory ∘ f = f' ∘ Node.memory := by
    funext n
    exact hmemory n
  rw [memory?, node?_modify]
  split
  · rw [Option.map_map, hcomm, ← Option.map_map, memory?]
  · rfl

theorem memory?_setInput (g : Graph) (id other : NodeId) (index : Nat) (value : Value) :
    (g.setInput id index value).memory? other =
      if other = id then
        (g.memory? other).map fun m => { m with inputs := m.inputs.set index value }
      else g.memory? other :=
  memory?_modify g id other _ _ _ fun _ => rfl

theorem memory?_setOutput (g : Graph) (id other : NodeId) (index : Nat) (value : Value) :
    (g.setOutput id index value).memory? other =
      if other = id then
        (g.memory? other).map fun m => { m with outputs := m.outputs.set index value }
      else g.memory? other :=
  memory?_modify g id other _ _ _ fun _ => rfl

theorem outputValue?_setOutput (g : Graph) (id : NodeId) (index : Nat) (value : Value) (pin : Nat) :
    (g.setOutput id index value).outputValue? id pin =
      if pin = index then (g.memory? id).map fun _ => value else g.outputValue? id pin := by
  rw [outputValue?, memory?_setOutput, if_pos rfl, Option.bind_map, outputValue?]
  cases g.memory? id with
  | none => exact (ite_self none).symm
  | some m => exact (Store.get?_set m.outputs index pin value).trans (by split <;> rfl)

@[simp]
theorem memory?_setActive (g : Graph) (id other : NodeId) (active : Bool) :
    (g.setActive id active).memory? other = g.memory? other := by
  have hsame : (g.setActive id active).memory? other =
      if other = id then (g.memory? other).map (fun m => m) else g.memory? other :=
    memory?_modify g id other _ _ _ fun _ => rfl
  rw [hsame, Option.map_id', ite_self]

theorem active?_modify (g : Graph) (id other : NodeId) (f : Node → Node)
    (hid : ∀ n, (f n).id = n.id) (hactive : ∀ n, (f n).active = n.active) :
    { g with nodes := g.nodes.modify id f hid }.active? other = g.active? other := by
  have hcomm : Node.active ∘ f = Node.active := by
    funext n
    exact hactive n
  rw [active?, node?_modify]
  split
  · rw [Option.map_map, hcomm, active?]
  · rfl

theorem active?_setInput (g : Graph) (id other : NodeId) (index : Nat) (value : Value) :
    (g.setInput id index value).active? other = g.active? other :=
  active?_modify g id other _ _ fun _ => rfl

theorem active?_setOutput (g : Graph) (id other : NodeId) (index : Nat) (value : Value) :
    (g.setOutput id index value).active? other = g.active? other :=
  active?_modify g id other _ _ fun _ => rfl

theorem active?_setActive_of_ne (g : Graph) {id other : NodeId} (active : Bool)
    (hother : other ≠ id) : (g.setActive id active).active? other = g.active? other := by
  rw [active?, setActive, node?_modify, if_neg hother, active?]

theorem active?_setActive_self (g : Graph) (id : NodeId) (active : Bool) :
    (g.setActive id active).active? id = (g.active? id).map fun _ => active := by
  rw [active?, setActive, node?_modify, if_pos rfl, Option.map_map, active?, Option.map_map]
  rfl

end Graph

/-! ## Invoking and copying -/

namespace Run

variable {r : Run} {id : NodeId} {connections : List Connection}

theorem memory?_invoke (r : Run) (id other : NodeId) :
    (r.invoke id).graph.memory? other =
      if other = id then (r.graph.memory? other).map (r.graph.react id)
      else r.graph.memory? other := by
  rw [invoke]
  cases hn : r.graph.node? id with
  | none =>
    by_cases hother : other = id
    · rw [if_pos hother, hother, Graph.memory?, hn]
      rfl
    · rw [if_neg hother]
  | some n =>
    have hset : (r.graph.setMemory id n.react.1).memory? other =
        if other = id then (r.graph.memory? other).map fun _ => n.react.1
        else r.graph.memory? other :=
      Graph.memory?_modify r.graph id other _ _ _ fun _ => rfl
    refine Eq.trans hset ?_
    by_cases hother : other = id
    · have hreact : r.graph.react id n.memory = n.react.1 := by
        rw [Graph.react, hn]
        rfl
      rw [if_pos hother, if_pos hother, hother, Graph.memory?, hn, Option.map_some,
        Option.map_some, Option.map_some, hreact]
    · rw [if_neg hother, if_neg hother]

theorem memory?_copy (r : Run) (c : Connection) (other : NodeId) :
    (r.copy c).graph.memory? other =
      if other = c.target then
        (r.graph.memory? other).map (·.receive c.targetPin (r.graph.delivery? c.toLink))
      else r.graph.memory? other := by
  have hkept : ∀ m : Option Memory,
      m = if other = c.target then m.map (·.receive c.targetPin none) else m := by
    intro m
    have hid : (fun m : Memory => m.receive c.targetPin none) = fun m => m := rfl
    rw [hid, Option.map_id', ite_self]
  rw [copy, ← Graph.sourceValue?_eq, Graph.delivery?]
  cases r.graph.sourceValue? c.toLink with
  | none =>
    rw [ite_self]
    exact hkept _
  | some value =>
    dsimp only
    rw [← Graph.targetPin?]
    split
    next => exact Graph.memory?_modify r.graph c.target other _ _ _ fun _ => rfl
    next => exact hkept _

@[simp]
theorem outputs_copy (r : Run) (c : Connection) (other : NodeId) :
    ((r.copy c).graph.memory? other).map Memory.outputs =
      (r.graph.memory? other).map Memory.outputs := by
  rw [memory?_copy]
  split
  · rw [Option.map_map]
    congr 1
    funext m
    exact Memory.outputs_receive m _ _
  · rfl

/-- Copying changes no outputs, so that it delivers the same afterwards. -/
theorem delivery?_copy (r : Run) (c : Connection) (l : Link) :
    (r.copy c).graph.delivery? l = r.graph.delivery? l :=
  Graph.delivery?_congr (skeleton_copy r c) (outputs_copy r c l.source)

theorem memory?_copyAll (htarget : ∀ c ∈ connections, c.target = id) (r : Run) (other : NodeId) :
    (r.copyAll connections).graph.memory? other =
      if other = id then
        (r.graph.memory? other).map (·.receiveAll r.graph.delivery? connections)
      else r.graph.memory? other := by
  induction connections generalizing r with
  | nil =>
    have hid : (fun m : Memory => m.receiveAll r.graph.delivery? []) = fun m => m := rfl
    rw [hid, Option.map_id', ite_self]
    rfl
  | cons c connections ih =>
    have hsame : (r.copy c).graph.delivery? = r.graph.delivery? := funext (delivery?_copy r c)
    have hc : c.target = id := htarget c List.mem_cons_self
    rw [copyAll, List.foldl_cons, ← copyAll,
      ih (fun d hd => htarget d (List.mem_cons_of_mem c hd)) (r.copy c), hsame, memory?_copy, hc]
    split
    · rw [Option.map_map]
      rfl
    · rfl

@[simp]
theorem active?_invoke (r : Run) (id other : NodeId) :
    (r.invoke id).graph.active? other = r.graph.active? other := by
  rw [invoke]
  split
  · rfl
  · exact Graph.active?_modify r.graph id other _ _ fun _ => rfl

@[simp]
theorem active?_copy (r : Run) (c : Connection) (other : NodeId) :
    (r.copy c).graph.active? other = r.graph.active? other := by
  rw [copy]
  split
  · rfl
  · split
    · exact Graph.active?_setInput r.graph c.target other _ _
    · rfl

end Run

end FlowGraph
