import FlowGraph.Catalog.Basic

/-!
# The standard templates

Event nodes, from which execution starts; the two flow nodes; a node that prints
to the log; and constants.
-/

namespace FlowGraph

namespace Catalog

/-- Print the text at input 1. -/
def printBehavior : Behavior := fun _ _ memory =>
  (memory, [.print (memory.inputs.getD 1 .text "")])

/-- Pass the value at input 0 on to output 0. -/
def forwardBehavior : Behavior := fun _ _ memory =>
  match memory.inputs.get? 0 with
  | some value => ({ memory with outputs := memory.outputs.set 0 value }, [])
  | none => (memory, [])

/-- An event node: a single exec output. -/
def event (key title description : String) : Template :=
  { Template.ofSpec key { title := title, category := "Events", outputs := [.exec] } with
    description := description }

/-- A constant: a pure node that passes its input on. -/
def literal (key title : String) (value : Value) : Template :=
  { Template.ofSpec key
      { title := title
        category := "Const"
        inputs := [.data "Value" value]
        outputs := [.data "Value" value] } with
    behavior := some forwardBehavior }

/-- The standard templates, in the order of their registration.  The event nodes
take their titles from the settings. -/
def standardTemplates (settings : Settings) : List Template :=
  [event "event_start" settings.startTitle "Entry point for execute_graph",
   event "event_tick" settings.tickTitle "Entry point for execute_tick",
   { Template.ofSpec "branch" (.branch "Branch") with description := "If/else branching" },
   { Template.ofSpec "for_loop" (.countingLoop "For Loop") with
     description := "Runs the body for each index in [Start, End)" },
   { Template.ofSpec "print_string"
       { title := "Print String"
         category := "Debug"
         inputs := [.exec, .data "Text" (.text "Hello")]
         outputs := [.exec] } with
     description := "Print a string to the log"
     behavior := some printBehavior },
   literal "const_string" "String" (.text "Hello"),
   literal "const_int" "Int" (.int 0),
   literal "const_float" "Float" (.float .zero),
   literal "const_bool" "Boolean" (.bool false)]

/-- Register the standard templates. -/
def addStandard (c : Catalog) (settings : Settings) : Catalog :=
  (standardTemplates settings).foldl add c

/-- The catalog of the standard templates. -/
def standard (settings : Settings) : Catalog := addStandard {} settings

end Catalog

end FlowGraph
