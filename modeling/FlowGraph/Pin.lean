import FlowGraph.Value

/-!
# Pins

A pin is a connection point on one side of a node.  It carries either execution
flow or a value, and only pins of the same class on opposite sides may be
joined.  A `PinSpec` declares a pin; its place and side are fixed when the node
is built.
-/

namespace FlowGraph

/-- The side of a node on which a pin sits. -/
inductive PinDirection where
  | input | output
  deriving DecidableEq, Repr, Inhabited

/-- What a pin carries: execution flow or a value. -/
inductive PinClass where
  | exec | data
  deriving DecidableEq, Repr, Inhabited

def PinDirection.name : PinDirection → String
  | .input => "Input"
  | .output => "Output"

namespace PinClass

def name : PinClass → String
  | .exec => "Exec"
  | .data => "Data"

/-- The colour in which the pins of a class are drawn, as red, green and blue. -/
def color : PinClass → List Nat
  | .exec => [255, 255, 255]
  | .data => [160, 160, 164]

/-- Only pins of the same class may be joined. -/
def joins (a b : PinClass) : Bool := a == b

end PinClass

/-- The declaration of a pin.  On a data input the value is the default of the
pin, on a data output its initial value; on an exec pin it has no effect. -/
structure PinSpec where
  name : String := ""
  cls : PinClass
  value : Option Value := none
  deriving DecidableEq, Inhabited

def PinSpec.exec (name : String := "") : PinSpec := ⟨name, .exec, none⟩

def PinSpec.data (name : String) (value : Value) : PinSpec := ⟨name, .data, some value⟩

/-- A pin of a node. -/
structure Pin where
  /-- The place of the pin among the pins on its side. -/
  index : Nat
  name : String
  direction : PinDirection
  cls : PinClass
  /-- The value that an unconnected data input holds. -/
  default : Option Value
  deriving DecidableEq, Inhabited

namespace Pin

/-- The pin that a declaration describes.  Only data inputs keep a default. -/
def ofSpec (index : Nat) (direction : PinDirection) (spec : PinSpec) : Pin where
  index := index
  name := spec.name
  direction := direction
  cls := spec.cls
  default :=
    match direction, spec.cls with
    | .input, .data => spec.value
    | _, _ => none

def isExec (p : Pin) : Bool := p.cls == .exec

def isData (p : Pin) : Bool := p.cls == .data

/-- The kind of the default, if the pin has one. -/
def kind (p : Pin) : Option ValueKind := p.default.map Value.kind

/-- Whether two pins may be joined: they sit on opposite sides and carry the
same. -/
def joins (a b : Pin) : Bool :=
  a.direction != b.direction && a.cls.joins b.cls

/-- Equality of pins, with numbers compared as numbers. -/
def equals (a b : Pin) : Bool :=
  a.index == b.index && a.name == b.name && a.direction == b.direction && a.cls == b.cls &&
    match a.default, b.default with
    | none, none => true
    | some v, some w => v.equals w
    | _, _ => false

end Pin

end FlowGraph
