import FlowGraph.Document.Skip
import FlowGraph.Document.Tree

/-!
# Forms

A form says how one kind of content is written, and reads it as a tree.  The tree
does not depend on the dialect: names that may be left out are absent from it, and
what only wraps content is a group of one item.
-/

namespace FlowGraph.Document

/-- Reads one kind of content at a place. -/
abbrev Form := Place → Reader Tree

namespace Form

def text : Form := fun _ => Reader.map (fun s => .text (String.ofList s)) readString

def truth : Form := fun _ text =>
  match readIdentifier? text with
  | some id =>
    if id.isWord "true" then some (.truth true, id.rest)
    else if id.isWord "false" then some (.truth false, id.rest)
    else none
  | none => none

/-- A number, which is not looked into. -/
def number : Form := fun _ text =>
  let token := text.takeWhile isRawPart
  if token.isEmpty then none else some (.number token, text.drop token.length)

def list (item : Form) : Form := fun p =>
  (between '[' ']' (readParts ']' item p)).map .list

def table (key content : Form) : Form := fun p =>
  (between '{' '}' (readParts '}' (fun q => readKeyed (key q) fun _ => content q) p)).map .table

def optional (content : Form) : Form := fun p =>
  (readOptional content p).map fun t => t.elim .absent .present

/-- Content that is wrapped in parentheses, with a name before them. -/
def wrapped (name : String) (content : Form) : Form := fun p text =>
  let group := Reader.map fun t => Tree.group none [t]
  if p.dialect.bareWrappers || p.isBare then group (p.enter content) text
  else do
    let rest ← skipBlank (← p.dialect.skipName name text)
    group (between '(' ')' (padded (p.enter content))) rest

/-- A given number of numbers between parentheses, with a name directly before them. -/
def numbers (name : String) (count : Nat) : Form := fun p text =>
  let items := p.enter fun whole => readExactly (whole.enter number) count
  let group := Reader.map (Tree.group none)
  if p.isBare then group items text
  else do group (between '(' ')' items) (← p.dialect.skipName name text)

/-- Read what belongs to a field name: by its form, or, if the name is not known, by
skipping it. -/
def fieldContent (forms : List (String × Form)) (p : Place) (name : String) :
    Reader (Option Tree) :=
  match forms.lookup name with
  | some form => (form p).map some
  | none => (skipAny p).map fun _ => none

/-- Read the fields of a record up to the closing parenthesis.  None of the known
ones may stand twice. -/
def fields (forms : List (String × Form)) (p : Place) : Reader (List (String × Tree)) :=
  fun text => do
    let (parts, rest) ←
      readParts ')' (fun q => readKeyed readName (fieldContent forms q)) p text
    let known := parts.filterMap fun (name, t) => t.map (name, ·)
    if forms.all fun (name, _) => (known.countP fun f => f.1 == name) ≤ 1 then
      return (known, rest)
    else none

/-- Fields between parentheses, with a name before them. -/
def record (name : String) (forms : List (String × Form)) : Form := fun p text =>
  let body := Reader.map (Tree.record none)
  if p.isBare then body (fields forms p) text
  else do
    let rest ← skipBlank (← p.dialect.skipName name text)
    body (between '(' ')' (fields forms p)) rest

/-- What an alternative holds. -/
inductive Holding where
  | nothing
  | content (form : Form)
  | fields (forms : List (String × Form))

/-- Read what an alternative holds, one level further in than the alternative. -/
def Holding.read (name : String) (p : Place) : Holding → Reader Tree
  | .nothing => fun text => some (.word name, text)
  | .content form => fun text => do
    let group := Reader.map fun t => Tree.group (some name) [t]
    group (between '(' ')' (padded (p.enterHeld form))) (← skipBlank text)
  | .fields forms => fun text => do
    (between '(' ')' (Form.fields forms p)).map (Tree.record (some name)) (← skipBlank text)

/-- One of several named alternatives, which is one level further in than its
surroundings.  Its name is read one level further still. -/
def choice (alternatives : List (String × Holding)) : Form :=
  Place.enter fun whole text => do
    let (name, rest) ← whole.enter (fun _ => readName) (← skipBlank text)
    (← alternatives.lookup name).read name whole rest

end Form

end FlowGraph.Document
