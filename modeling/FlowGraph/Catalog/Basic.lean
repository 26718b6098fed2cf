import FlowGraph.Graph.Building

/-!
# Catalogs of node templates

A template describes a kind of node once; a catalog keeps templates in the order
in which their keys were first registered and stamps out nodes from them.
-/

namespace FlowGraph

/-- A kind of node. -/
structure Template where
  key : String
  title : String
  category : String
  description : String := ""
  inputs : List PinSpec
  outputs : List PinSpec
  flow : Flow
  /-- The behavior that all nodes of the kind share. -/
  behavior : Option Behavior := none

namespace Template

/-- The template that a declaration describes.  The behavior of the declaration is
its own and is not shared. -/
def ofSpec (key : String) (spec : NodeSpec) : Template where
  key := key
  title := spec.title
  category := spec.category
  inputs := spec.inputs
  outputs := spec.outputs
  flow := spec.flow

/-- The declaration of a node of the kind. -/
def toSpec (t : Template) : NodeSpec where
  title := t.title
  category := t.category
  inputs := t.inputs
  outputs := t.outputs
  flow := t.flow
  behavior := t.behavior

end Template

/-- Why no node can be made from a template. -/
inductive CatalogError where
  | unknownKey (key : String)
  | invalid (error : SpecError)
  deriving DecidableEq, Repr

def CatalogError.message : CatalogError → String
  | .unknownKey key => "Unknown node template: " ++ key
  | .invalid error => "Invalid node template: " ++ error.message

/-- Templates by key, in the order of first registration. -/
structure Catalog where
  templates : Table Template.key := ∅

namespace Catalog

instance : Inhabited Catalog := ⟨{}⟩

def get? (c : Catalog) (key : String) : Option Template := c.templates.find? key

def size (c : Catalog) : Nat := c.templates.size

def isEmpty (c : Catalog) : Bool := c.templates.rows.isEmpty

def keys (c : Catalog) : List String := c.templates.keys

/-- Register a template, in the place of a template with the same key if there is
one. -/
def add (c : Catalog) (t : Template) : Catalog := ⟨c.templates.put t⟩

def inCategory (c : Catalog) (category : String) : List Template :=
  c.templates.rows.filter fun t => t.category == category

/-- The distinct categories, in the order of their first template. -/
def categories (c : Catalog) : List String :=
  c.templates.rows.foldl
    (fun seen t => if t.category ∈ seen then seen else seen ++ [t.category]) []

/-- Create a node of a kind. -/
def spawn (c : Catalog) (g : Graph) (key : String) :
    Outcome (Except CatalogError NodeId) :=
  match c.get? key with
  | none => { graph := g, result := .error (.unknownKey key) }
  | some t =>
    let created := g.addNode t.toSpec
    created.answer (created.result.mapError .invalid)

end Catalog

end FlowGraph
