import FlowGraph.Text.Identifier

/-!
# Names in documents

Fields, alternatives and records are named by identifiers.  A raw identifier is
written behind `r#` and may hold points and signs too.  Some literals begin like
identifiers and are none.
-/

namespace FlowGraph.Document

/-- The beginnings of literals that look like identifiers. -/
def literalMarks : List (List Char) :=
  [['b', '"'], ['b', '\''], ['b', 'r', '#'], ['b', 'r', '"'], ['r', '"'], ['r', '#', '"'],
   ['r', '#', '#']]

/-- The characters of an identifier behind `r#`.  They are also those of a number. -/
def isRawPart (c : Char) : Bool :=
  Text.isIdentifierPart c || c == '.' || c == '+' || c == '-'

/-- An identifier at the start of a text. -/
structure Identifier where
  name : String
  /-- Whether it is written behind `r#`. -/
  isRaw : Bool
  rest : List Char

/-- Whether an identifier is a word of the notation, which a raw one never is. -/
def Identifier.isWord (id : Identifier) (word : String) : Bool :=
  !id.isRaw && id.name == word

/-- Read an identifier. -/
def readIdentifier? (text : List Char) : Option Identifier :=
  if literalMarks.any (·.isPrefixOf text) then none
  else
    match text with
    | 'r' :: '#' :: rest =>
      let name := rest.takeWhile isRawPart
      if name.isEmpty then none
      else some ⟨String.ofList name, true, rest.drop name.length⟩
    | c :: rest =>
      if Text.isIdentifierStart c then
        let tail := rest.takeWhile Text.isIdentifierPart
        some ⟨String.ofList (c :: tail), false, rest.drop tail.length⟩
      else none
    | [] => none

/-- Read the name that an identifier gives. -/
def readName (text : List Char) : Option (String × List Char) :=
  (readIdentifier? text).map fun id => (id.name, id.rest)

end FlowGraph.Document
