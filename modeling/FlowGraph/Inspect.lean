import FlowGraph.Catalog.Basic
import FlowGraph.Text.Quoted

/-!
# Inspection texts

Declarations, nodes, templates and values can be shown in full for diagnosis:
records with their field names, alternatives with their arguments, texts in
quotes and numbers with a point or an exponent.  A record that leaves fields out
ends in two points.
-/

namespace FlowGraph

namespace Inspect

/-- Items separated by commas. -/
def commas (items : List String) : String := ", ".intercalate items

def list (items : List String) : String := "[" ++ commas items ++ "]"

/-- An alternative with its arguments. -/
def applied (name : String) (arguments : List String) : String :=
  name ++ "(" ++ commas arguments ++ ")"

def fields (fields : List (String × String)) : List String :=
  fields.map fun (name, content) => name ++ ": " ++ content

/-- A record with all its fields. -/
def record (name : String) (content : List (String × String)) : String :=
  name ++ " \x7b " ++ commas (fields content) ++ " \x7d"

/-- A record that leaves fields out. -/
def partialRecord (name : String) (content : List (String × String)) : String :=
  name ++ " \x7b " ++ commas (fields content ++ [".."]) ++ " \x7d"

def quoted (s : String) : String := Text.quote .diagnostic s

def number (n : Nat) : String := toString n

def truth (b : Bool) : String := if b then "true" else "false"

def option (o : Option String) : String :=
  match o with
  | none => "None"
  | some content => applied "Some" [content]

end Inspect

open Inspect

def Binary32.inspect (x : Binary32) : String := x.render .diagnostic

def Vec2.inspect (v : Vec2) : String := applied "Vec2" (v.components.map Binary32.inspect)

def Vec3.inspect (v : Vec3) : String := applied "Vec3" (v.components.map Binary32.inspect)

def Vec4.inspect (v : Vec4) : String := applied "Vec4" (v.components.map Binary32.inspect)

def Mat3.inspect (m : Mat3) : String :=
  record "Mat3" [("x_axis", m.x.inspect), ("y_axis", m.y.inspect), ("z_axis", m.z.inspect)]

def Mat4.inspect (m : Mat4) : String :=
  record "Mat4" [("x_axis", m.x.inspect), ("y_axis", m.y.inspect), ("z_axis", m.z.inspect),
    ("w_axis", m.w.inspect)]

def Value.inspect : Value → String
  | .text s => applied "Text" [quoted s]
  | .int i => applied "Int" [toString i.toInt]
  | .float x => applied "Float" [x.inspect]
  | .bool b => applied "Bool" [truth b]
  | .vec2 v => applied "Vec2" [v.inspect]
  | .vec3 v => applied "Vec3" [v.inspect]
  | .mat3 m => applied "Mat3" [m.inspect]
  | .mat4 m => applied "Mat4" [m.inspect]
  | .handle h => applied "Handle" [applied "Handle" [number h.number.toNat]]

def PinSpec.inspect (spec : PinSpec) : String :=
  record "PinSpec" [("name", quoted spec.name), ("class", spec.cls.name),
    ("default_value", option (spec.value.map Value.inspect))]

def Pin.inspect (p : Pin) : String :=
  record "Pin" [("index", number p.index), ("name", quoted p.name),
    ("direction", p.direction.name), ("class", p.cls.name),
    ("default_value", option (p.default.map Value.inspect))]

def Flow.inspect : Flow → String
  | .sequence => "Sequence"
  | .branch condition onTrue onFalse =>
    record "Branch" [("condition", number condition), ("on_true", number onTrue),
      ("on_false", number onFalse)]
  | .loop first limit index body completed =>
    record "Loop" [("start", number first), ("end", number limit), ("index", number index),
      ("body", number body), ("completed", number completed)]

def NodeSpec.inspect (spec : NodeSpec) : String :=
  record "NodeSpec" [("title", quoted spec.title), ("category", quoted spec.category),
    ("inputs", list (spec.inputs.map PinSpec.inspect)),
    ("outputs", list (spec.outputs.map PinSpec.inspect)), ("flow", spec.flow.inspect),
    ("behavior", truth spec.behavior.isSome)]

def Node.inspect (n : Node) : String :=
  partialRecord "Node" [("id", applied "NodeId" [number n.id.number]), ("title", quoted n.title),
    ("category", quoted n.category), ("inputs", list (n.inputs.map Pin.inspect)),
    ("outputs", list (n.outputs.map Pin.inspect)), ("flow", n.flow.inspect),
    ("active", truth n.active)]

def Template.inspect (t : Template) : String :=
  partialRecord "NodeTemplate" [("key", quoted t.key), ("title", quoted t.title),
    ("category", quoted t.category), ("inputs", list (t.inputs.map PinSpec.inspect)),
    ("outputs", list (t.outputs.map PinSpec.inspect)), ("flow", t.flow.inspect)]

end FlowGraph
