import FlowGraph.Node.Behavior
import FlowGraph.Node.Flow

/-!
# Node declarations

A `NodeSpec` holds all that is needed to build a node.  It is valid if every pin
that its flow role asks for exists and has the right class; `NodeSpec.fault?`
finds the first requirement that is not met.
-/

namespace FlowGraph

/-- The declaration of a node. -/
structure NodeSpec where
  title : String
  category : String := ""
  inputs : List PinSpec := []
  outputs : List PinSpec := []
  flow : Flow := .sequence
  behavior : Option Behavior := none

/-- Why a declaration is not valid. -/
inductive SpecError where
  /-- The flow role names a pin that does not exist. -/
  | missingPin (part : FlowPart) (index : Nat) (direction : PinDirection)
  /-- The flow role names a pin of the wrong class. -/
  | wrongClass (part : FlowPart) (index : Nat) (expected : PinClass)
  deriving DecidableEq, Repr

def SpecError.message : SpecError → String
  | .missingPin part index direction =>
    part.name ++ " pin " ++ toString index ++ " does not exist on "
      ++ direction.name ++ " side"
  | .wrongClass part index expected =>
    part.name ++ " pin " ++ toString index ++ " must be a " ++ expected.name ++ " pin"

namespace NodeSpec

/-- The declared pins on one side. -/
def pins (spec : NodeSpec) : PinDirection → List PinSpec
  | .input => spec.inputs
  | .output => spec.outputs

/-- How the declaration fails one requirement, if it does. -/
def violation? (spec : NodeSpec) (r : FlowRequirement) : Option SpecError :=
  match (spec.pins r.direction)[r.index]? with
  | none => some (.missingPin r.part r.index r.direction)
  | some pin => if pin.cls = r.cls then none else some (.wrongClass r.part r.index r.cls)

/-- How the declaration fails the first requirement that it fails. -/
def fault? (spec : NodeSpec) : Option SpecError :=
  spec.flow.requirements.findSome? spec.violation?

/-- A conditional branch: an exec input, the input `Condition`, and the exec
outputs `True` and `False`. -/
def branch (title : String) : NodeSpec where
  title := title
  category := "Flow"
  inputs := [.exec, .data "Condition" (.bool false)]
  outputs := [.exec "True", .exec "False"]
  flow := .branch 1 0 1

/-- A counting loop: an exec input, the inputs `Start` and `End`, the exec
outputs `Loop Body` and `Completed`, and the output `Index`. -/
def countingLoop (title : String) : NodeSpec where
  title := title
  category := "Flow"
  inputs := [.exec, .data "Start" (.int 0), .data "End" (.int 0)]
  outputs := [.exec "Loop Body", .exec "Completed", .data "Index" (.int 0)]
  flow := .loop 1 2 2 0 1

end NodeSpec

end FlowGraph
