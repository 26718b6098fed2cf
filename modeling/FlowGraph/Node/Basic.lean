import FlowGraph.Node.Spec

/-!
# Nodes

A node owns its pins, its memory and its behavior.  It is built from a valid
declaration, with every data input holding its default and every data output its
initial value, and every pin knows the side on which it sits.
-/

namespace FlowGraph

/-- A node of a graph. -/
structure Node where
  id : NodeId
  title : String
  category : String
  inputs : List Pin
  outputs : List Pin
  flow : Flow
  memory : Memory
  /-- Whether the node has been entered and not yet left by the execution. -/
  active : Bool
  behavior : Option Behavior
  input_side : ∀ p ∈ inputs, p.direction = .input
  output_side : ∀ p ∈ outputs, p.direction = .output

namespace Node

/-- The pins of one side of a declaration. -/
def pinsOfSpecs (direction : PinDirection) (specs : List PinSpec) : List Pin :=
  specs.mapIdx fun index spec => Pin.ofSpec index direction spec

theorem direction_of_mem_pinsOfSpecs {direction : PinDirection} {specs : List PinSpec} {p : Pin}
    (h : p ∈ pinsOfSpecs direction specs) : p.direction = direction := by
  obtain ⟨index, hindex, rfl⟩ := List.mem_mapIdx.1 h
  rfl

/-- The values that the data pins of one side start with. -/
def initialValues (specs : List PinSpec) : Store Nat :=
  .ofList <| (specs.mapIdx fun index spec => (index, spec)).filterMap fun (index, spec) =>
    match spec.cls, spec.value with
    | .data, some value => some (index, value)
    | _, _ => none

/-- The node that a declaration describes. -/
def build (id : NodeId) (spec : NodeSpec) : Node where
  id := id
  title := spec.title
  category := spec.category
  inputs := pinsOfSpecs .input spec.inputs
  outputs := pinsOfSpecs .output spec.outputs
  flow := spec.flow
  memory := { inputs := initialValues spec.inputs, outputs := initialValues spec.outputs }
  active := false
  behavior := spec.behavior
  input_side _ h := direction_of_mem_pinsOfSpecs h
  output_side _ h := direction_of_mem_pinsOfSpecs h

/-- The node that a valid declaration describes. -/
def ofSpec (id : NodeId) (spec : NodeSpec) : Except SpecError Node :=
  match spec.fault? with
  | some error => .error error
  | none => .ok (build id spec)

theorem eq_build_of_ofSpec {id : NodeId} {spec : NodeSpec} {n : Node}
    (h : ofSpec id spec = .ok n) : n = build id spec := by
  rw [ofSpec] at h
  split at h
  · cases h
  · cases h
    rfl

/-- The input pin at an index. -/
def input? (n : Node) (index : Nat) : Option Pin := n.inputs[index]?

/-- The output pin at an index. -/
def output? (n : Node) (index : Nat) : Option Pin := n.outputs[index]?

/-- A node is pure if no exec pin leads into it. -/
def isPure (n : Node) : Bool := !n.inputs.any Pin.isExec

def hasBehavior (n : Node) : Bool := n.behavior.isSome

def setInput (n : Node) (pin : Nat) (value : Value) : Node :=
  { n with memory := { n.memory with inputs := n.memory.inputs.set pin value } }

def setOutput (n : Node) (pin : Nat) (value : Value) : Node :=
  { n with memory := { n.memory with outputs := n.memory.outputs.set pin value } }

def clearInput (n : Node) (pin : Nat) : Node :=
  { n with memory := { n.memory with inputs := n.memory.inputs.erase pin } }

/-- What the behavior makes of the memory of the node, and what it remarks.
Without a behavior nothing changes. -/
def react (n : Node) : Memory × List Remark :=
  match n.behavior with
  | some behavior => behavior n.id n.title n.memory
  | none => (n.memory, [])

/-- Put a data input back to its default, or clear it if it has none. -/
def resetInput (n : Node) (index : Nat) : Node :=
  match n.input? index with
  | none => n
  | some pin =>
    if pin.isData then
      match pin.default with
      | some value => n.setInput index value
      | none => n.clearInput index
    else n

@[simp]
theorem setInput_id (n : Node) (pin : Nat) (value : Value) : (n.setInput pin value).id = n.id :=
  rfl

@[simp]
theorem setOutput_id (n : Node) (pin : Nat) (value : Value) : (n.setOutput pin value).id = n.id :=
  rfl

@[simp]
theorem resetInput_id (n : Node) (index : Nat) : (n.resetInput index).id = n.id := by
  unfold resetInput
  split
  · rfl
  · split
    · split <;> rfl
    · rfl

end Node

end FlowGraph
