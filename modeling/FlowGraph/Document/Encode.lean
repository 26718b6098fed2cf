import FlowGraph.Document.Tree
import FlowGraph.Settings
import FlowGraph.Snapshot

/-!
# Settings and snapshots as documents

The document of a record has a field for each part.  Ids and handles are groups
of one item, vectors and matrices groups of numbers, and a value is a group named
for its kind.
-/

namespace FlowGraph

open Document (Tree)

namespace Document

/-- The digits of a natural number. -/
def natural (n : Nat) : Tree := .number (Nat.toDigits 10 n)

/-- The digits of an integer, behind a minus if it is negative. -/
def integer (i : Int) : Tree :=
  .number (if i < 0 then '-' :: Nat.toDigits 10 i.natAbs else Nat.toDigits 10 i.natAbs)

def decimal (x : Binary32) : Tree := .number (x.write .document)

/-- A group of numbers. -/
def decimals (numbers : List Binary32) : Tree := .group none (numbers.map decimal)

def optional (content : Option Tree) : Tree :=
  match content with
  | none => .absent
  | some t => .present t

end Document

open Document

def Handle.toTree (h : Handle) : Tree := .group none [natural h.number.toNat]

def NodeId.toTree (id : NodeId) : Tree := .group none [natural id.number]

def ConnectionId.toTree (id : ConnectionId) : Tree := .group none [.text id.text]

def Value.toTree : Value → Tree
  | .text s => .group (some "Text") [.text s]
  | .int i => .group (some "Int") [integer i.toInt]
  | .float x => .group (some "Float") [decimal x]
  | .bool b => .group (some "Bool") [.truth b]
  | .vec2 v => .group (some "Vec2") [decimals v.components]
  | .vec3 v => .group (some "Vec3") [decimals v.components]
  | .mat3 m => .group (some "Mat3") [decimals m.components]
  | .mat4 m => .group (some "Mat4") [decimals m.components]
  | .handle h => .group (some "Handle") [h.toTree]

def Flow.toTree : Flow → Tree
  | .sequence => .word "Sequence"
  | .branch condition onTrue onFalse =>
    .record (some "Branch") [("condition", natural condition), ("on_true", natural onTrue),
      ("on_false", natural onFalse)]
  | .loop first limit index body completed =>
    .record (some "Loop") [("start", natural first), ("end", natural limit),
      ("index", natural index), ("body", natural body), ("completed", natural completed)]

def Pin.toTree (p : Pin) : Tree :=
  .record none [("index", natural p.index), ("name", .text p.name),
    ("direction", .word p.direction.name), ("class", .word p.cls.name),
    ("default_value", optional (p.default.map Value.toTree))]

/-- The table of the values of a store by pin index. -/
def Store.toTree (s : Store Nat) : Tree :=
  .table (s.entries.map fun e => (natural e.1, e.2.toTree))

def Connection.toTree (c : Connection) : Tree :=
  .record none [("id", c.id.toTree), ("from_node", c.source.toTree),
    ("from_pin", natural c.sourcePin), ("to_node", c.target.toTree),
    ("to_pin", natural c.targetPin)]

def NodeSnapshot.toTree (n : NodeSnapshot) : Tree :=
  .record none [("id", n.id.toTree), ("title", .text n.title), ("category", .text n.category),
    ("inputs", .list (n.inputs.map Pin.toTree)), ("outputs", .list (n.outputs.map Pin.toTree)),
    ("flow", n.flow.toTree), ("active", .truth n.active),
    ("input_values", n.inputValues.toTree), ("output_values", n.outputValues.toTree)]

def Snapshot.toTree (s : Snapshot) : Tree :=
  .record none [("name", .text s.name), ("nodes", .list (s.nodes.map NodeSnapshot.toTree)),
    ("connections", .list (s.connections.map Connection.toTree))]

def Settings.toTree (s : Settings) : Tree :=
  .record none [("start_event", .text s.startTitle), ("tick_event", .text s.tickTitle),
    ("refresh_before_execute", .truth s.refreshesFirst),
    ("pull_dependencies", .truth s.refreshesOnEntry)]

end FlowGraph
