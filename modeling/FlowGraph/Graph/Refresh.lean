import FlowGraph.Graph.DataOrder

/-!
# Refreshing values

Values move from the output slots of nodes to the input slots that they are
connected to.  A pure node is invoked again whenever its value is refreshed.

* `refreshPure` goes once over the graph in data order and refreshes the
  connections that start at pure nodes.
* `refreshAll` does the same for all data connections.
* `refreshConnection` refreshes one connection.
* `refreshInputs` refreshes the inputs of one node, walking back through pure
  nodes; other nodes contribute the values that they last computed.
-/

namespace FlowGraph

namespace Run

/-- Invoke a node if it is live and pure. -/
def invokeIfPure (r : Run) (id : NodeId) : Run :=
  if r.graph.isPure id then r.invoke id else r

/-- Copy along all of the given connections in turn. -/
def copyAll (r : Run) (connections : List Connection) : Run :=
  connections.foldl copy r

/-- Refresh one node in a pass over the graph: copy into its inputs, and invoke it
if it is pure and a data connection starts at it. -/
def refreshNode (pureOnly : Bool) (r : Run) (id : NodeId) : Run :=
  let inputs := (r.graph.dataInputs id).filter fun c => !pureOnly || r.graph.isPure c.source
  let copied := r.copyAll inputs
  if copied.graph.feedsData id then copied.invokeIfPure id else copied

end Run

namespace Graph

/-- A pass over the graph in data order. -/
def sweep (g : Graph) (pureOnly : Bool) : Run :=
  let ordered := g.knowOrder
  let run := ordered.result.foldl (Run.refreshNode pureOnly) ordered.toRun
  run.record (.swept run.stats pureOnly)

/-- Refresh every data connection that starts at a pure node. -/
def refreshPure (g : Graph) : Run := g.sweep true

/-- Refresh every data connection. -/
def refreshAll (g : Graph) : Run := g.sweep false

end Graph

/-- Refresh one connection: invoke its source if that is pure, then copy. -/
def Run.refreshConnection (r : Run) (id : ConnectionId) : Run :=
  match r.graph.connection? id with
  | none => r
  | some c =>
    if r.graph.carriesData c.toLink then (r.invokeIfPure c.source).copy c else r

def Graph.refreshConnection (g : Graph) (id : ConnectionId) : Run :=
  Run.refreshConnection { graph := g } id

/-! ## Walking back to what a node depends on -/

namespace Dependency

/-- The state of the walk.  A node on the stack is either still to be visited, or
visited and waiting for its sources to be listed before it. -/
structure Walk where
  visited : List NodeId
  /-- The nodes listed, newest first. -/
  listed : List NodeId
  stack : List (NodeId × Bool)

/-- The live sources of a node's data inputs that have not been visited. -/
def freshSources (g : Graph) (visited : List NodeId) (id : NodeId) : List NodeId :=
  ((g.dataInputs id).map fun c => c.source).filter fun source =>
    source ∉ visited && g.hasNode source

/-- Take one entry from the stack.  Only the target and pure nodes are walked
past; any other node is listed without its sources. -/
def Walk.step (g : Graph) (target : NodeId) (w : Walk) : Walk :=
  match w.stack with
  | [] => w
  | (id, true) :: stack => { w with listed := id :: w.listed, stack := stack }
  | (id, false) :: stack =>
    if id ∈ w.visited then { w with stack := stack }
    else
      let visited := id :: w.visited
      let sources := if id = target || g.isPure id then freshSources g visited id else []
      { w with
        visited := visited
        stack := (sources.reverse.map fun source => (source, false)) ++ (id, true) :: stack }

/-- The given number of steps. -/
def Walk.advance (g : Graph) (target : NodeId) : Nat → Walk → Walk
  | 0, w => w
  | steps + 1, w => advance g target steps (w.step g target)

end Dependency

/-- The nodes on which the data inputs of `target` depend, each after those that it
depends on itself, and `target` last.  Every connection puts at most one entry on
the stack and every visited node one more, which bounds the number of steps. -/
def Graph.dependencies (g : Graph) (target : NodeId) : List NodeId :=
  let steps := 2 + g.nodes.size + g.connections.size
  (Dependency.Walk.advance g target steps ⟨[], [], [(target, false)]⟩).listed.reverse

namespace Run

/-- Refresh one node that `target` depends on, or `target` itself, which is not
invoked. -/
def refreshDependency (target : NodeId) (r : Run) (id : NodeId) : Run :=
  let copied := r.copyAll (r.graph.dataInputs id)
  if id = target then copied else copied.invokeIfPure id

/-- Refresh the inputs of one node from all that it depends on. -/
def refreshInputs (r : Run) (target : NodeId) : Run :=
  (r.graph.dependencies target).foldl (refreshDependency target) r

end Run

def Graph.refreshInputs (g : Graph) (target : NodeId) : Run :=
  Run.refreshInputs { graph := g } target

end FlowGraph
