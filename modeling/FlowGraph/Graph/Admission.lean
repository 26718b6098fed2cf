import FlowGraph.Graph.Basic
import FlowGraph.Graph.Error
import FlowGraph.Graph.Reach

/-!
# Which links may be added

The rules are checked in a fixed order, and the first that fails is the reason
for refusal: both nodes exist, both pins exist, the pins carry the same, the ends
are different nodes, no connection enters the input pin yet, and no path leads
back from the target to the source.
-/

namespace FlowGraph

namespace Graph

/-- Whether an edge from `source` to `target` would close a cycle. -/
def closesCycle (g : Graph) (source target : NodeId) : Bool :=
  (Adjacency.ofConnections g.connections.rows).pathExists target source

/-- The rules, checked in order. -/
def check (g : Graph) (l : Link) : Except Refusal Unit := do
  let some source := g.node? l.source | throw (.noNode l.source)
  let some target := g.node? l.target | throw (.noNode l.target)
  let some sourcePin := source.output? l.sourcePin
    | throw (.noOutput l.source l.sourcePin)
  let some targetPin := target.input? l.targetPin
    | throw (.noInput l.target l.targetPin)
  if !sourcePin.joins targetPin then
    throw (.classMismatch sourcePin.cls targetPin.cls)
  if l.source = l.target then
    throw .selfLoop
  if g.isConnected l.target l.targetPin .input then
    throw (.occupied l.target l.targetPin)
  if g.closesCycle l.source l.target then
    throw (.closesCycle l.source l.target)

/-- Whether a link may be added. -/
def admits (g : Graph) (l : Link) : Bool :=
  match g.check l with
  | .ok () => true
  | .error _ => false

end Graph

end FlowGraph
