import FlowGraph.Document.Name
import FlowGraph.Document.Reader

/-!
# Places in a document

How content is read depends on where it stands: on the extensions of the notation
that are switched on, on how many levels of nesting are left, and on whether the
parentheses around it count as its own.  The inside of a group, record, list or
table is one level further in than its surroundings, and each of its parts is one
more.  Wrapped and optional content is one level further in.
-/

namespace FlowGraph.Document

/-- The extensions of the notation that a document may switch on. -/
structure Dialect where
  /-- The parentheses and the name of a wrapper are left out. -/
  bareWrappers : Bool := false
  /-- Optional content that is there may be written without saying so. -/
  impliesSome : Bool := false
  /-- What an alternative or a `Some` holds is bare. -/
  flatAlternatives : Bool := false
  /-- Groups and records must be named. -/
  requiresNames : Bool := false
  deriving DecidableEq, Inhabited

/-- Switch on an extension by its name. -/
def Dialect.enable? (d : Dialect) (extension : String) : Option Dialect :=
  if extension = "unwrap_newtypes" then some { d with bareWrappers := true }
  else if extension = "implicit_some" then some { d with impliesSome := true }
  else if extension = "unwrap_variant_newtypes" then some { d with flatAlternatives := true }
  else if extension = "explicit_struct_names" then some { d with requiresNames := true }
  else none

/-- Skip the name before a parenthesis: the given one, or none where names may be
left out. -/
def Dialect.skipName (d : Dialect) (name : String) (text : List Char) : Option (List Char) :=
  if text.head?.any Text.isIdentifierPart then
    match readIdentifier? text with
    | some id => if id.name = name then some id.rest else none
    | none => none
  else if d.requiresNames then none
  else some text

/-- Where content stands in a document. -/
structure Place where
  dialect : Dialect
  /-- How many further levels of nesting may be entered. -/
  room : Nat
  /-- Whether the parentheses around the content count as its own. -/
  isBare : Bool := false

namespace Place

/-- Read content that is one level further in, if there is a level left. -/
def enter {α : Type} (content : Place → Reader α) (p : Place) : Reader α :=
  match p.room with
  | 0 => fun _ => none
  | room + 1 => content { dialect := p.dialect, room }

/-- Read what an alternative or a `Some` holds, which is one level further in. -/
def enterHeld {α : Type} (content : Place → Reader α) : Place → Reader α :=
  enter fun q => content { q with isBare := q.dialect.flatAlternatives }

end Place

/-- Read the parts of content up to its closing bracket, which is left in place. -/
def readParts {α : Type} (closing : Char) (part : Place → Reader α) : Place → Reader (List α) :=
  Place.enter fun whole text => readItems closing (whole.enter part) (text.length + 1) text

/-- Read optional content: the word `None`, the word `Some` with the content between
parentheses or, if that may be implied, the content without parentheses and perhaps
without the word. -/
def readOptional {α : Type} (content : Place → Reader α) (p : Place) : Reader (Option α) :=
  fun text =>
    let held : Reader α := between '(' ')' (padded (p.enterHeld content))
    let implied : Reader α := if p.dialect.impliesSome then p.enter content else fun _ => none
    match readIdentifier? text with
    | none => implied.map some text
    | some id =>
      if id.isWord "None" then some (none, id.rest)
      else if id.isWord "Some" then do
        let rest ← skipBlank id.rest
        if rest.head? = some '(' then held.map some rest else implied.map some rest
      else implied.map some text

end FlowGraph.Document
