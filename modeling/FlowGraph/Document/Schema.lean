import FlowGraph.Document.Form
import FlowGraph.Settings
import FlowGraph.Snapshot

/-!
# The forms of settings and snapshots

Each type has its form in documents.  Records have a name before their parenthesis,
which may be left out, and so have ids, handles and groups of numbers, which are
called as their types.
-/

namespace FlowGraph

open Document

def Handle.form : Form := .wrapped "Handle" .number

def NodeId.form : Form := .wrapped "NodeId" .number

def ConnectionId.form : Form := .wrapped "ConnectionId" .text

def Value.form : Form :=
  .choice [("Text", .content .text), ("Int", .content .number), ("Float", .content .number),
    ("Bool", .content .truth), ("Vec2", .content (.numbers "Vec2" 2)),
    ("Vec3", .content (.numbers "Vec3" 3)), ("Mat3", .content (.numbers "Mat3" 9)),
    ("Mat4", .content (.numbers "Mat4" 16)), ("Handle", .content Handle.form)]

def PinDirection.form : Form := .choice [("Input", .nothing), ("Output", .nothing)]

def PinClass.form : Form := .choice [("Exec", .nothing), ("Data", .nothing)]

def Pin.form : Form :=
  .record "Pin" [("index", .number), ("name", .text), ("direction", PinDirection.form),
    ("class", PinClass.form), ("default_value", .optional Value.form)]

def Flow.form : Form :=
  .choice [("Sequence", .nothing),
    ("Branch", .fields [("condition", .number), ("on_true", .number), ("on_false", .number)]),
    ("Loop", .fields [("start", .number), ("end", .number), ("index", .number),
      ("body", .number), ("completed", .number)])]

/-- The form of a table of values by pin index. -/
def Store.form : Form := .table .number Value.form

def Connection.form : Form :=
  .record "Connection" [("id", ConnectionId.form), ("from_node", NodeId.form),
    ("from_pin", .number), ("to_node", NodeId.form), ("to_pin", .number)]

def NodeSnapshot.form : Form :=
  .record "NodeSnapshot" [("id", NodeId.form), ("title", .text), ("category", .text),
    ("inputs", .list Pin.form), ("outputs", .list Pin.form), ("flow", Flow.form),
    ("active", .truth), ("input_values", Store.form), ("output_values", Store.form)]

def Snapshot.form : Form :=
  .record "GraphSnapshot" [("name", .text), ("nodes", .list NodeSnapshot.form),
    ("connections", .list Connection.form)]

def Settings.form : Form :=
  .record "EngineConfig" [("start_event", .text), ("tick_event", .text),
    ("refresh_before_execute", .truth), ("pull_dependencies", .truth)]

end FlowGraph
