import FlowGraph.Graph.Refresh

/-!
# Execution

Execution goes depth-first along exec connections: a node is invoked, and then
each of its successors runs to its end before the next one starts.  Branch and
loop nodes choose the exec outputs that are followed.

What is still to be done is kept on a stack, so that the length of a chain of
nodes is limited by memory alone.
-/

namespace FlowGraph

namespace Execution

/-- Something that is still to be done. -/
inductive Pending where
  /-- Invoke a node and put its successors on the stack. -/
  | enter (node : NodeId)
  /-- All successors of a node have finished. -/
  | leave (node : NodeId)
  /-- The next pass of a loop. -/
  | pass (node : NodeId) (next limit : Int32)
  deriving DecidableEq, Repr

/-- An execution under way, with the top of the stack first. -/
structure Machine where
  run : Run
  stack : List Pending

/-- The live targets of the exec connections that leave a node, from all of its
pins or from one. -/
def successors (g : Graph) (node : NodeId) (pin : Option Nat) : List NodeId :=
  (g.connections.rows.filter fun c =>
    c.source == node && pin.all (c.sourcePin == ·) && g.carriesExec c.toLink
      && c.target != node && g.hasNode c.target).map fun c => c.target

/-- The entering of the successors of a node, the first successor on top. -/
def enterAll (g : Graph) (node : NodeId) (pin : Option Nat) : List Pending :=
  (successors g node pin).map .enter

/-- What follows the invocation of a node. -/
def continuation (r : Run) (n : Node) : Run × List Pending :=
  match n.flow with
  | .sequence => (r, enterAll r.graph n.id none)
  | .branch condition onTrue onFalse =>
    let taken := if n.memory.inputs.getD condition .bool false then onTrue else onFalse
    (r, enterAll r.graph n.id (some taken))
  | .loop first limit _ _ _ =>
    let first := n.memory.inputs.getD first .int (0 : Int32)
    let limit := n.memory.inputs.getD limit .int (0 : Int32)
    (r.record (.looping n.id first limit), [.pass n.id first limit])

/-- Refresh what a node depends on, if the settings say so. -/
def prepare (r : Run) (id : NodeId) : Run :=
  if r.graph.settings.refreshesOnEntry then r.refreshInputs id else r

/-- Enter a node: refresh what it depends on, mark it, invoke it, and put what follows
on the stack. -/
def enter (r : Run) (id : NodeId) (stack : List Pending) : Machine :=
  let prepared := prepare r id
  if prepared.graph.hasNode id then
    let invoked := Run.invoke { prepared with graph := prepared.graph.setActive id true } id
    match invoked.graph.node? id with
    | none => ⟨invoked, stack⟩
    | some n =>
      let (run, following) := continuation invoked n
      ⟨run, following ++ .leave id :: stack⟩
  else ⟨prepared, stack⟩

/-- Do the next pass of a loop, or go on to what follows it. -/
def pass (r : Run) (id : NodeId) (next limit : Int32) (stack : List Pending) : Machine :=
  match (r.graph.node? id).map Node.flow with
  | some (.loop _ _ index body completed) =>
    if next < limit then
      let run := { r with graph := r.graph.setOutput id index (.int next) }
      ⟨run, enterAll run.graph id (some body) ++ .pass id (next + 1) limit :: stack⟩
    else ⟨r, enterAll r.graph id (some completed) ++ stack⟩
  | _ => ⟨r, stack⟩

/-- Work off the top of the stack. -/
def Machine.step (m : Machine) : Machine :=
  match m.stack with
  | [] => m
  | .enter id :: stack => enter m.run id stack
  | .leave id :: stack => ⟨{ m.run with graph := m.run.graph.setActive id false }, stack⟩
  | .pass id next limit :: stack => pass m.run id next limit stack

/-- Work off the whole stack, if the given number of steps is enough for it. -/
def Machine.finish? : Nat → Machine → Option Run
  | 0, _ => none
  | steps + 1, m => if m.stack.isEmpty then some m.run else finish? steps m.step

/-- More steps than any execution of a graph without cycles takes.  Entering a
node leads to fewer than 2³² passes, each along every connection at most, and the
nodes entered within one another are distinct. -/
def stepBound (g : Graph) : Nat :=
  Nat.pow (0x100000000 * (g.connections.size + 1) + 2) (g.nodes.size + 1)

end Execution

open Execution

/-- Execute a node and everything that follows it. -/
def Run.execute (r : Run) (start : NodeId) : Except ExecutionError Run :=
  if r.graph.hasNode start then
    match Machine.finish? (stepBound r.graph) ⟨r.record (.executing start), [.enter start]⟩ with
    | some run => .ok run
    | none => .error (.endless start)
  else .error (.noNode start)

namespace Graph

/-- Execute a node and everything that follows it.  If that is refused the graph
is left as it is. -/
def execute (g : Graph) (start : NodeId) : Outcome (Except ExecutionError Unit) :=
  match Run.execute { graph := g } start with
  | .ok run => run.answer (.ok ())
  | .error error => { graph := g, result := .error error }

/-- Execute from the first node with a title.  The answer says whether there is
one. -/
def fire (g : Graph) (title : String) : Outcome Bool :=
  match g.findTitle? title with
  | none => { graph := g, journal := [.nothingToExecute title], result := false }
  | some entry =>
    let refreshed : Run :=
      if g.settings.refreshesFirst then g.refreshAll else { graph := g }
    match refreshed.execute entry with
    | .ok run => run.answer true
    | .error _ => refreshed.answer true

/-- Execute from the start event of the settings. -/
def fireStart (g : Graph) : Outcome Bool := g.fire g.settings.startTitle

/-- Execute from the tick event of the settings. -/
def fireTick (g : Graph) : Outcome Bool := g.fire g.settings.tickTitle

end Graph

end FlowGraph
