import FlowGraph.Document.Tree
import FlowGraph.Text.Quoted

/-!
# Writing documents

Groups are written on one line.  Records, lists and tables have each part on a
line of its own, indented by four blanks more than the line of the opening
bracket and followed by a comma; when empty they are a pair of brackets.
-/

namespace FlowGraph.Document

/-- The blanks at the start of a line at the given depth. -/
def indent (depth : Nat) : List Char := List.replicate (4 * depth) ' '

/-- A name before an opening parenthesis. -/
def writeName (name : Option String) : List Char := (name.map String.toList).getD []

namespace Tree

mutual

/-- The characters of a tree whose first line is indented by `depth`. -/
def write (depth : Nat) : Tree → List Char
  | .word name => name.toList
  | .truth b => if b then ['t', 'r', 'u', 'e'] else ['f', 'a', 'l', 's', 'e']
  | .number token => token
  | .text s => Text.quoteChars .document s.toList
  | .absent => ['N', 'o', 'n', 'e']
  | .present content => ['S', 'o', 'm', 'e', '('] ++ content.write depth ++ [')']
  | .group name items => writeName name ++ '(' :: writeItems depth items ++ [')']
  | .record name [] => writeName name ++ ['(', ')']
  | .record name (field :: rest) =>
    writeName name ++ ['(', '\n'] ++ writeFields (depth + 1) (field :: rest)
      ++ indent depth ++ [')']
  | .list [] => ['[', ']']
  | .list (item :: rest) =>
    ['[', '\n'] ++ writeLines (depth + 1) (item :: rest) ++ indent depth ++ [']']
  | .table [] => ['{', '}']
  | .table (entry :: rest) =>
    ['{', '\n'] ++ writeEntries (depth + 1) (entry :: rest) ++ indent depth ++ ['}']
termination_by structural t => t

/-- The items of a group, separated by commas. -/
def writeItems (depth : Nat) : List Tree → List Char
  | [] => []
  | [item] => item.write depth
  | item :: rest => item.write depth ++ [',', ' '] ++ writeItems depth rest
termination_by structural items => items

/-- The items of a list, one a line. -/
def writeLines (depth : Nat) : List Tree → List Char
  | [] => []
  | item :: rest => indent depth ++ item.write depth ++ [',', '\n'] ++ writeLines depth rest
termination_by structural items => items

/-- The fields of a record, one a line. -/
def writeFields (depth : Nat) : List (String × Tree) → List Char
  | [] => []
  | (name, content) :: rest =>
    indent depth ++ name.toList ++ [':', ' '] ++ content.write depth ++ [',', '\n']
      ++ writeFields depth rest
termination_by structural fields => fields

/-- The entries of a table, one a line. -/
def writeEntries (depth : Nat) : List (Tree × Tree) → List Char
  | [] => []
  | (key, content) :: rest =>
    indent depth ++ key.write depth ++ [':', ' '] ++ content.write depth ++ [',', '\n']
      ++ writeEntries depth rest
termination_by structural entries => entries

end

/-- The text of a document. -/
def render (t : Tree) : String := String.ofList (t.write 0)

end Tree

end FlowGraph.Document
