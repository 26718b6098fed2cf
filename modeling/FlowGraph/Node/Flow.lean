import FlowGraph.Pin

/-!
# Flow roles

The flow role of a node says how execution goes on after the node has run, and
names the pins that play a part in it.  The parts are listed as requirements:
each asks for a pin of one class at one place on one side.
-/

namespace FlowGraph

/-- How execution goes on after a node has run.  The numbers are pin indices. -/
inductive Flow where
  /-- Along every outgoing exec connection. -/
  | sequence
  /-- Along one of two exec outputs, as a boolean input says. -/
  | branch (condition onTrue onFalse : Nat)
  /-- Along `body` once for each number from input `first` up to, but not
  including, input `limit`, with the number in output `index`; then along
  `completed`. -/
  | loop (first limit index body completed : Nat)
  deriving DecidableEq, Repr, Inhabited

/-- A part that a pin plays in a flow role. -/
inductive FlowPart where
  | condition | onTrue | onFalse | first | limit | index | body | completed
  deriving DecidableEq, Repr, Inhabited

/-- The name of a part in messages. -/
def FlowPart.name : FlowPart → String
  | .condition => "condition"
  | .onTrue => "true"
  | .onFalse => "false"
  | .first => "start"
  | .limit => "end"
  | .index => "index"
  | .body => "body"
  | .completed => "completed"

/-- The pin that a part asks for. -/
structure FlowRequirement where
  part : FlowPart
  index : Nat
  direction : PinDirection
  cls : PinClass
  deriving DecidableEq, Repr

/-- The pins that a flow role asks for, in the order in which they are checked. -/
def Flow.requirements : Flow → List FlowRequirement
  | .sequence => []
  | .branch condition onTrue onFalse =>
    [⟨.condition, condition, .input, .data⟩,
     ⟨.onTrue, onTrue, .output, .exec⟩,
     ⟨.onFalse, onFalse, .output, .exec⟩]
  | .loop first limit index body completed =>
    [⟨.first, first, .input, .data⟩,
     ⟨.limit, limit, .input, .data⟩,
     ⟨.index, index, .output, .data⟩,
     ⟨.body, body, .output, .exec⟩,
     ⟨.completed, completed, .output, .exec⟩]

end FlowGraph
