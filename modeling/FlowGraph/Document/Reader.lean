import FlowGraph.Document.Blank

/-!
# Readers

A reader takes something off the start of a text and leaves the rest.  The readers
here build up what all brackets of a document have in common: items are separated
by commas, a comma may also follow the last of them, and blanks may stand around
each.
-/

namespace FlowGraph.Document

/-- Reads something at the start of a text: what it stands for, and what follows it. -/
abbrev Reader (α : Type) := List Char → Option (α × List Char)

namespace Reader

/-- Read the same and change what it stands for. -/
def map {α β : Type} (f : α → β) (reader : Reader α) : Reader β := fun text =>
  (reader text).map fun (a, rest) => (f a, rest)

/-- Read the same and forget what it stands for. -/
def skip {α : Type} (reader : Reader α) : Reader Unit := reader.map fun _ => ()

end Reader

/-- What follows one character, which must be the first. -/
def expect (c : Char) : List Char → Option (List Char)
  | [] => none
  | first :: rest => if first = c then some rest else none

/-- Skip blanks, a comma, and blanks behind it.  The comma may be missing, which is
answered. -/
def skipComma : Reader Bool := fun text => do
  match ← skipBlank text with
  | ',' :: rest => return (true, ← skipBlank rest)
  | rest => return (false, rest)

/-- Read what stands between two brackets. -/
def between {α : Type} (opening closing : Char) (body : Reader α) : Reader α := fun text => do
  let (a, rest) ← body (← expect opening text)
  return (a, ← expect closing rest)

/-- Read content with blanks around it and perhaps a comma behind it. -/
def padded {α : Type} (content : Reader α) : Reader α := fun text => do
  let (a, rest) ← content (← skipBlank text)
  let (_, rest) ← skipComma rest
  return (a, rest)

/-- Read items up to a closing bracket, which is left in place.  At most the given
number of steps is taken. -/
def readItems {α : Type} (closing : Char) (item : Reader α) : Nat → Reader (List α)
  | 0, _ => none
  | count + 1, text => do
    let text ← skipBlank text
    if text.head? = some closing then return ([], text)
    let (a, rest) ← item text
    let (separated, rest) ← skipComma rest
    if separated then
      let (more, rest) ← readItems closing item count rest
      return (a :: more, rest)
    else if rest.head? = some closing then return ([a], rest)
    else none

/-- Read a given number of items. -/
def readExactly {α : Type} (item : Reader α) : Nat → Reader (List α)
  | 0, text => some ([], text)
  | count + 1, text => do
    let (a, rest) ← item (← skipBlank text)
    let (separated, rest) ← skipComma rest
    if separated || count = 0 then
      let (more, rest) ← readExactly item count rest
      return (a :: more, rest)
    else none

/-- Read a key and, behind a colon, the content that belongs to it. -/
def readKeyed {κ α : Type} (key : Reader κ) (content : κ → Reader α) : Reader (κ × α) :=
  fun text => do
    let (k, rest) ← key text
    let rest ← expect ':' (← skipBlank rest)
    let (a, rest) ← content k (← skipBlank rest)
    return ((k, a), rest)

end FlowGraph.Document
