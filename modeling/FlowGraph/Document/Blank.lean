/-!
# Blanks and comments

Between the tokens of a document there may be white space, comments from `//` to
the end of the line, and comments between `/*` and `*/`, which may be nested.
-/

namespace FlowGraph.Document

/-- White space: the pattern white space of Unicode. -/
def isBlank (c : Char) : Bool :=
  c ∈ [' ', '\t', '\n', '\x0b', '\x0c', '\r', '\u0085', '\u200e', '\u200f', '\u2028', '\u2029']

/-- Where a reader stands among blanks and comments. -/
inductive BlankState where
  | between
  | line
  /-- Inside comments that are nested in the given number of others. -/
  | block (depth : Nat)

/-- Skip blanks and comments.  There is no answer if a comment is not closed, or if
a slash does not begin one. -/
def skipFrom : BlankState → List Char → Option (List Char)
  | .between, '/' :: '/' :: rest => skipFrom .line rest
  | .between, '/' :: '*' :: rest => skipFrom (.block 0) rest
  | .between, '/' :: _ => none
  | .between, c :: rest => if isBlank c then skipFrom .between rest else some (c :: rest)
  | .between, [] => some []
  | .line, c :: rest => skipFrom (if c = '\n' then .between else .line) rest
  | .line, [] => some []
  | .block depth, '/' :: '*' :: rest => skipFrom (.block (depth + 1)) rest
  | .block 0, '*' :: '/' :: rest => skipFrom .between rest
  | .block (depth + 1), '*' :: '/' :: rest => skipFrom (.block depth) rest
  | .block depth, _ :: rest => skipFrom (.block depth) rest
  | .block _, [] => none

/-- What follows the blanks and comments at the start of a text. -/
def skipBlank (text : List Char) : Option (List Char) := skipFrom .between text

end FlowGraph.Document
