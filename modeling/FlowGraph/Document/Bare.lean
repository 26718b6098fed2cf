import FlowGraph.Document.Literal
import FlowGraph.Document.Name
import FlowGraph.Document.Reader

/-!
# Bare content

Content is bare if the parentheses around it, which belong to an alternative or a
`Some`, count as its own.  What it holds then shows only further on: fields have a
colon behind their first name, and several items have a comma among them that is
not the last character.
-/

namespace FlowGraph.Document

/-- What bare content may hold. -/
inductive BareContent where
  /-- The fields of a record. -/
  | fields
  /-- The items of a group. -/
  | several
  /-- Content that has its own brackets, if it needs any. -/
  | single
  deriving DecidableEq

/-- What bare content holds that has a comma before the given text. -/
def behindComma (text : List Char) : Option BareContent := do
  match ← skipBlank text with
  | ')' :: _ => return .single
  | _ => return .several

/-- Skip a character, a text and bytes, as far as they stand next to one another in
this order. -/
def skipLiterals (text : List Char) : List Char :=
  let text := (skipCharacter text).getD text
  let text := ((readString text).map (·.2)).getD text
  ((readBytes text).map (·.2)).getD text

/-- Look for the first comma that is not inside literals, comments or brackets, of
which `depth` are open.  At most the given number of steps is taken. -/
def seekComma : Nat → Nat → List Char → Option BareContent
  | 0, _, _ => none
  | steps + 1, depth, text => do
    match skipLiterals (← skipBlank text) with
    | [] => none
    | c :: rest =>
      if c = '(' || c = '[' || c = '{' then seekComma steps (depth + 1) rest
      else if c = ')' || c = ']' || c = '}' then
        if depth = 0 then return .single else seekComma steps (depth - 1) rest
      else if c = ',' && depth = 0 then behindComma rest
      else seekComma steps depth rest

/-- What bare content holds. -/
def bareContent? (text : List Char) : Option BareContent := do
  let text ← skipBlank text
  match readIdentifier? text with
  | none => seekComma (text.length + 1) 0 text
  | some id =>
    match ← skipBlank id.rest with
    | ':' :: _ => return .fields
    | ',' :: rest => behindComma rest
    | ')' :: _ => return .single
    | rest => seekComma (rest.length + 1) 0 rest

end FlowGraph.Document
