import FlowGraph.Binary32.Layout

/-!
# Values

A value is what a data pin holds.  The set of kinds is closed, and a typed read
asks for one kind: it gives the carried content if the value is of that kind and
nothing otherwise.

Two equalities live side by side.  Structural equality (`=`) compares bit
patterns; `Value.equals` compares numbers as numbers, so that a value holding a
NaN differs from itself and the two zeros are the same.
-/

namespace FlowGraph

/-- An opaque reference to something the host owns. -/
structure Handle where
  number : UInt64
  deriving DecidableEq, Inhabited

structure Vec2 where
  x : Binary32
  y : Binary32
  deriving DecidableEq, Inhabited

structure Vec3 where
  x : Binary32
  y : Binary32
  z : Binary32
  deriving DecidableEq, Inhabited

structure Vec4 where
  x : Binary32
  y : Binary32
  z : Binary32
  w : Binary32
  deriving DecidableEq, Inhabited

/-- A three by three matrix, as its columns. -/
structure Mat3 where
  x : Vec3
  y : Vec3
  z : Vec3
  deriving DecidableEq, Inhabited

/-- A four by four matrix, as its columns. -/
structure Mat4 where
  x : Vec4
  y : Vec4
  z : Vec4
  w : Vec4
  deriving DecidableEq, Inhabited

def Vec2.components (v : Vec2) : List Binary32 := [v.x, v.y]
def Vec3.components (v : Vec3) : List Binary32 := [v.x, v.y, v.z]
def Vec4.components (v : Vec4) : List Binary32 := [v.x, v.y, v.z, v.w]

/-- The entries of a matrix, column after column. -/
def Mat3.components (m : Mat3) : List Binary32 :=
  m.x.components ++ m.y.components ++ m.z.components

/-- The entries of a matrix, column after column. -/
def Mat4.components (m : Mat4) : List Binary32 :=
  m.x.components ++ m.y.components ++ m.z.components ++ m.w.components

/-- What a value is. -/
inductive ValueKind where
  | text | int | float | bool | vec2 | vec3 | mat3 | mat4 | handle
  deriving DecidableEq, Repr, Inhabited

namespace ValueKind

/-- Every kind once, in the order of their declaration. -/
def all : List ValueKind :=
  [.text, .int, .float, .bool, .vec2, .vec3, .mat3, .mat4, .handle]

/-- The name of a kind in messages to people. -/
def name : ValueKind → String
  | .text => "text"
  | .int => "int"
  | .float => "float"
  | .bool => "bool"
  | .vec2 => "vec2"
  | .vec3 => "vec3"
  | .mat3 => "mat3"
  | .mat4 => "mat4"
  | .handle => "handle"

/-- The type of what a value of the kind carries. -/
abbrev Carrier : ValueKind → Type
  | .text => String
  | .int => Int32
  | .float => Binary32
  | .bool => Bool
  | .vec2 => Vec2
  | .vec3 => Vec3
  | .mat3 => Mat3
  | .mat4 => Mat4
  | .handle => Handle

theorem mem_all (kind : ValueKind) : kind ∈ all := by
  cases kind <;> decide

end ValueKind

/-- A value that a pin can hold. -/
inductive Value where
  | text (content : String)
  | int (content : Int32)
  | float (content : Binary32)
  | bool (content : Bool)
  | vec2 (content : Vec2)
  | vec3 (content : Vec3)
  | mat3 (content : Mat3)
  | mat4 (content : Mat4)
  | handle (content : Handle)
  deriving DecidableEq, Inhabited

namespace Value

def kind : Value → ValueKind
  | .text _ => .text
  | .int _ => .int
  | .float _ => .float
  | .bool _ => .bool
  | .vec2 _ => .vec2
  | .vec3 _ => .vec3
  | .mat3 _ => .mat3
  | .mat4 _ => .mat4
  | .handle _ => .handle

/-- What the value carries. -/
def content : (v : Value) → v.kind.Carrier
  | .text c => c
  | .int c => c
  | .float c => c
  | .bool c => c
  | .vec2 c => c
  | .vec3 c => c
  | .mat3 c => c
  | .mat4 c => c
  | .handle c => c

/-- The value of the given kind with the given content. -/
def ofContent : (kind : ValueKind) → kind.Carrier → Value
  | .text, c => .text c
  | .int, c => .int c
  | .float, c => .float c
  | .bool, c => .bool c
  | .vec2, c => .vec2 c
  | .vec3, c => .vec3 c
  | .mat3, c => .mat3 c
  | .mat4, c => .mat4 c
  | .handle, c => .handle c

/-- The typed read: the content if the value is of the asked kind. -/
def get? (v : Value) (kind : ValueKind) : Option kind.Carrier :=
  if h : v.kind = kind then some (h ▸ v.content) else none

@[simp]
theorem kind_ofContent (kind : ValueKind) (content : kind.Carrier) :
    (ofContent kind content).kind = kind := by
  cases kind <;> rfl

/-- A typed read succeeds exactly on the values of the asked kind, and then
gives all that the value holds. -/
theorem get?_eq_some_iff {v : Value} {kind : ValueKind} {content : kind.Carrier} :
    v.get? kind = some content ↔ v = ofContent kind content := by
  constructor
  · intro hget
    by_cases hkind : v.kind = kind
    · subst hkind
      simp only [get?, dite_true, Option.some.injEq] at hget
      subst hget
      cases v <;> rfl
    · simp [get?, hkind] at hget
  · intro hv
    subst hv
    cases kind <;> rfl

/-- Numeric equality of two lists of numbers, entry by entry. -/
def equalNumbers (a b : List Binary32) : Bool :=
  a.length == b.length && (a.zip b).all fun (x, y) => x.equals y

/-- Equality of values, with numbers compared as numbers. -/
def equals : Value → Value → Bool
  | .text a, .text b => a == b
  | .int a, .int b => a == b
  | .float a, .float b => a.equals b
  | .bool a, .bool b => a == b
  | .vec2 a, .vec2 b => equalNumbers a.components b.components
  | .vec3 a, .vec3 b => equalNumbers a.components b.components
  | .mat3 a, .mat3 b => equalNumbers a.components b.components
  | .mat4 a, .mat4 b => equalNumbers a.components b.components
  | .handle a, .handle b => a == b
  | _, _ => false

/-- Numbers between the given brackets, separated by commas. -/
def bracketed (opening closing : String) (numbers : List Binary32) : String :=
  opening ++ ", ".intercalate (numbers.map (·.render .plain)) ++ closing

/-- The text of a value as shown to people. -/
def display : Value → String
  | .text s => s
  | .int i => toString i.toInt
  | .float x => x.render .plain
  | .bool b => if b then "true" else "false"
  | .vec2 v => bracketed "(" ")" v.components
  | .vec3 v => bracketed "(" ")" v.components
  | .mat3 m => "[" ++ ", ".intercalate ([m.x, m.y, m.z].map column3) ++ "]"
  | .mat4 m => "[" ++ ", ".intercalate ([m.x, m.y, m.z, m.w].map column4) ++ "]"
  | .handle h => "handle#" ++ toString h.number.toNat
where
  column3 (v : Vec3) : String := bracketed "[" "]" v.components
  column4 (v : Vec4) : String := bracketed "[" "]" v.components

end Value

end FlowGraph
