import FlowGraph.Graph.Error

/-!
# Events

Every operation on a graph keeps a journal of what it does.  Some events are
reported to the log, with a level, a topic and a text; the invocations of nodes,
the copies of values and the lines noted for the host are only counted or passed
on.
-/

namespace FlowGraph

/-- How much was done in one pass over a graph. -/
structure Stats where
  /-- The number of node invocations. -/
  invoked : Nat := 0
  /-- The number of values copied along connections. -/
  copied : Nat := 0
  deriving DecidableEq, Repr

/-- Something that happened to a graph. -/
inductive Event where
  | nodeAdded (node : NodeId) (title : String) (inputs outputs : Nat)
  | refused (link : Link) (error : Refusal)
  | connected (link : Link)
  | disconnected (link : Link)
  | nodeRemoved (node : NodeId) (connections : Nat)
  | dataOrdered (nodes : Nat)
  | swept (stats : Stats) (pureOnly : Bool)
  | nothingToExecute (title : String)
  | executing (start : NodeId)
  | looping (node : NodeId) (first limit : Int32)
  | violationFound (violation : Violation)
  | nothingToClean
  | cleaned (connections : Nat)
  | printed (node : NodeId) (text : String)
  | noted (node : NodeId) (line : String)
  | invoked (node : NodeId)
  | copied (connection : ConnectionId)
  deriving DecidableEq, Repr

/-- How important a report is. -/
inductive Level where
  | trace | debug | info | warn
  deriving DecidableEq, Repr

/-- The part of the engine that a report comes from. -/
inductive Topic where
  | graph | propagation | execution | maintenance | print
  deriving DecidableEq, Repr

/-- An entry of the log. -/
structure Report where
  level : Level
  topic : Topic
  text : String
  deriving DecidableEq, Repr

namespace Event

/-- The event that a remark of a behavior gives rise to. -/
def ofRemark (node : NodeId) : Remark → Event
  | .print text => .printed node text
  | .note line => .noted node line

def isInvocation : Event → Bool
  | .invoked _ => true
  | _ => false

def isCopy : Event → Bool
  | .copied _ => true
  | _ => false

/-- What the log shows of an event. -/
def report? : Event → Option Report
  | .nodeAdded node title inputs outputs =>
    some ⟨.debug, .graph, "Created node " ++ node.label ++ " '" ++ title ++ "' ("
      ++ toString inputs ++ " inputs, " ++ toString outputs ++ " outputs)"⟩
  | .refused link error =>
    some ⟨.debug, .graph, "Rejected connection " ++ link.label ++ ": " ++ error.message⟩
  | .connected link => some ⟨.debug, .graph, "Connected " ++ link.label⟩
  | .disconnected link =>
    some ⟨.debug, .maintenance, "Removed connection " ++ link.label⟩
  | .nodeRemoved node connections =>
    some ⟨.debug, .maintenance, "Deleted node " ++ node.label ++ " and "
      ++ toString connections ++ " connections"⟩
  | .dataOrdered nodes =>
    some ⟨.debug, .propagation, "Calculated data order over " ++ toString nodes ++ " nodes"⟩
  | .swept stats pureOnly =>
    some ⟨.trace, .propagation, "Pulled " ++ toString stats.copied ++ " values, invoked "
      ++ toString stats.invoked ++ " nodes (pure only: "
      ++ (if pureOnly then "true" else "false") ++ ")"⟩
  | .nothingToExecute title =>
    some ⟨.debug, .execution, "No '" ++ title ++ "' node, nothing to execute"⟩
  | .executing start => some ⟨.debug, .execution, "Executing from " ++ start.label⟩
  | .looping node first limit =>
    some ⟨.trace, .execution, "Loop " ++ node.label ++ " over [" ++ toString first.toInt
      ++ ", " ++ toString limit.toInt ++ ")"⟩
  | .violationFound violation =>
    some ⟨.warn, .maintenance, "Integrity: " ++ violation.message⟩
  | .nothingToClean =>
    some ⟨.debug, .maintenance, "Cleanup found no invalid connections"⟩
  | .cleaned connections =>
    some ⟨.info, .maintenance, "Removed " ++ toString connections ++ " invalid connections"⟩
  | .printed node text => some ⟨.info, .print, "[" ++ node.label ++ "] " ++ text⟩
  | .noted _ _ => none
  | .invoked _ => none
  | .copied _ => none

end Event

/-- The counts of invocations and copies among events. -/
def Stats.ofEvents (events : List Event) : Stats where
  invoked := events.countP Event.isInvocation
  copied := events.countP Event.isCopy

end FlowGraph
