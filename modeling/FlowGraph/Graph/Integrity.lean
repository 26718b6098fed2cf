import FlowGraph.Graph.Reach
import FlowGraph.Graph.Removal

/-!
# Integrity

Stored connections may break the rules if they were restored unchecked.  The
audit goes through them in insertion order and accepts each that breaks no rule
together with those accepted before it; so of two connections into the same
input, or of those on a cycle, it is the later one that is reported.
-/

namespace FlowGraph

namespace Graph

/-- How a connection breaks the rules, given the connections accepted before it,
newest first. -/
def violation? (g : Graph) (accepted : List Connection) (c : Connection) : Option Violation :=
  match g.node? c.source, g.node? c.target with
  | none, _ => some (.noNode c.id c.source)
  | some _, none => some (.noNode c.id c.target)
  | some source, some target =>
    match source.output? c.sourcePin, target.input? c.targetPin with
    | none, _ => some (.noOutput c.id c.source c.sourcePin)
    | some _, none => some (.noInput c.id c.target c.targetPin)
    | some sourcePin, some targetPin =>
      if sourcePin.cls ≠ targetPin.cls then some (.classMismatch c.id)
      else if accepted.any fun a => a.enters c.target c.targetPin then
        some (.occupied c.id c.target c.targetPin)
      else if c.source = c.target
          || (Adjacency.ofConnections accepted.reverse).pathExists c.target c.source then
        some (.closesCycle c.id)
      else none

/-- Go through connections in order, collecting the accepted ones, newest first,
and the violations. -/
def violationsAmong (g : Graph) : List Connection → List Connection → List Violation
  | _, [] => []
  | accepted, c :: rest =>
    match g.violation? accepted c with
    | some violation => violation :: violationsAmong g accepted rest
    | none => violationsAmong g (c :: accepted) rest

/-- The connections that break the rules, in insertion order. -/
def violations (g : Graph) : List Violation := g.violationsAmong [] g.connections.rows

/-- Whether no connection breaks the rules.  Every violation is reported. -/
def validate (g : Graph) : Outcome Bool :=
  let violations := g.violations
  { graph := g
    journal := (violations.map .violationFound).reverse
    result := violations.isEmpty }

/-- Remove the connections that break the rules.  The answer is their number. -/
def cleanup (g : Graph) : Outcome Nat :=
  let invalid := g.violations.map Violation.connection
  if invalid.isEmpty then { graph := g, journal := [.nothingToClean], result := 0 }
  else
    let removal := g.disconnectWhere fun c => c.id ∈ invalid
    (removal.record (.cleaned removal.result)).answer removal.result

end Graph

end FlowGraph
