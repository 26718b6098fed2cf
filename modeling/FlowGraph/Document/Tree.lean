/-!
# Documents

Settings and snapshots are saved as documents.  A document is a tree: leaves are
names, truth values, numbers and texts; inner nodes are groups in parentheses,
records in parentheses with field names, lists in brackets and tables in braces.
A group or a record may have a name before its parenthesis.
-/

namespace FlowGraph.Document

/-- The content of a document. -/
inductive Tree where
  /-- A bare name, such as an alternative without content. -/
  | word (name : String)
  | truth (b : Bool)
  /-- A number, as it is written. -/
  | number (token : List Char)
  | text (s : String)
  /-- The optional content that is not there. -/
  | absent
  /-- An optional content that is there. -/
  | present (content : Tree)
  | group (name : Option String) (items : List Tree)
  | record (name : Option String) (fields : List (String × Tree))
  | list (items : List Tree)
  | table (entries : List (Tree × Tree))
  deriving Inhabited

end FlowGraph.Document
