/-!
# Settings
-/

namespace FlowGraph

/-- How values are kept up to date and where execution starts. -/
structure Settings where
  /-- The title of the node from which a whole run starts. -/
  startTitle : String := "On Start"
  /-- The title of the node from which a tick runs. -/
  tickTitle : String := "On Tick"
  /-- All data connections are refreshed before a run from an event. -/
  refreshesFirst : Bool := true
  /-- The data that a node depends on is refreshed before the node is entered. -/
  refreshesOnEntry : Bool := true
  deriving DecidableEq, Inhabited

end FlowGraph
