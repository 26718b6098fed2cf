import FlowGraph.Document.Form

/-!
# Reading documents

A document is content between blanks.  It may begin with attributes `#![enable(…)]`,
which switch on extensions of the notation.
-/

namespace FlowGraph.Document

/-- How many levels of nesting a document may have. -/
def depthLimit : Nat := 128

/-- Read the given characters, each followed by blanks. -/
def expectAll : List Char → List Char → Option (List Char)
  | [], text => some text
  | c :: more, text => do expectAll more (← skipBlank (← expect c text))

/-- Read the word that attributes switch extensions on with. -/
def expectEnable (text : List Char) : Option (List Char) :=
  let word := "enable".toList
  if word.isPrefixOf text then skipBlank (text.drop word.length) else none

/-- Read attributes, at most the given number of them. -/
def readAttributes : Nat → Dialect → Reader Dialect
  | 0, _, _ => none
  | count + 1, d, text =>
    match text with
    | '#' :: _ => do
      let rest ← expectAll ['#', '!', '['] text
      let rest ← expectAll ['('] (← expectEnable rest)
      let (names, rest) ← readItems ')' readName (text.length + 1) rest
      if names.isEmpty then none
      else
        let d ← names.foldlM Dialect.enable? d
        readAttributes count d (← expectAll [')', ']'] rest)
    | _ => some (d, text)

/-- Read a whole document of the given form. -/
def read? (form : Form) (text : List Char) : Option Tree := do
  let (dialect, body) ← readAttributes (text.length + 1) {} (← skipBlank text)
  let (t, rest) ← form { dialect, room := depthLimit } body
  match ← skipBlank rest with
  | [] => return t
  | _ => none

end FlowGraph.Document
