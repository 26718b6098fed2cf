import FlowGraph.Document.Bare
import FlowGraph.Document.Number
import FlowGraph.Document.Place

/-!
# Skipping

The content of a field that is not known may be anything that the notation allows,
as long as it is not nested too deeply, and is skipped.
-/

namespace FlowGraph.Document

/-- Whether a number may begin with a character. -/
def startsNumber (c : Char) : Bool :=
  isDecimalDigit c || c == '+' || c == '-' || c == '.'

/-- Skip a number, a text, a character, bytes or a byte. -/
def skipLiteral : Reader Unit
  | [] => none
  | c :: rest =>
    let text := c :: rest
    if startsNumber c then
      let token := text.takeWhile isRawPart
      if isNumber token then some ((), text.drop token.length) else none
    else if c = '"' || c = 'r' then Reader.skip readString text
    else if c = '\'' then (skipCharacter text).map fun rest => ((), rest)
    else if rest.head? = some '\'' then (skipByte text).map fun rest => ((), rest)
    else Reader.skip readBytes text

/-- Whether a field name stands at the start of a text, behind blanks. -/
def startsField (text : List Char) : Bool :=
  ((skipBlank text).bind readIdentifier?).any fun id =>
    ((skipBlank id.rest).bind List.head?) == some ':'

/-- The words that stand for content by themselves. -/
def plainWords : List String :=
  ["true", "false", "None", "inf", "NaN", "inff32", "NaNf32", "inff64", "NaNf64"]

section

variable (inner : Place → Reader Unit)

/-- Skip items up to a closing bracket. -/
def skipItems (closing : Char) (p : Place) : Reader Unit :=
  Reader.skip (readParts closing inner p)

/-- Skip the fields of a record up to the closing parenthesis. -/
def skipFields (p : Place) : Reader Unit :=
  Reader.skip (readParts ')' (fun q => readKeyed readName fun _ => inner q) p)

/-- Skip the entries of a table up to the closing brace. -/
def skipEntries (p : Place) : Reader Unit :=
  Reader.skip (readParts '}' (fun q => readKeyed (inner q) fun _ => inner q) p)

/-- Skip a group or a record from its opening to its closing parenthesis. -/
def skipGroup (p : Place) : Reader Unit :=
  between '(' ')' fun text =>
    if startsField text then skipFields inner p text else skipItems inner ')' p text

/-- Skip what an identifier begins. -/
def skipNamed (p : Place) (id : Identifier) : Option (Unit × List Char) :=
  if plainWords.any id.isWord then some ((), id.rest)
  else do
    let rest ← skipBlank id.rest
    if rest.head? = some '(' then skipGroup inner p rest else return ((), rest)

/-- Skip content that has its own brackets. -/
def skipBracketed (p : Place) : Reader Unit := fun text =>
  match readIdentifier? text with
  | some id =>
    if id.isWord "Some" then Reader.skip (readOptional inner p) text else skipNamed inner p id
  | none =>
    match text with
    | '(' :: ')' :: rest => some ((), rest)
    | '(' :: _ => skipGroup inner p text
    | '[' :: _ => between '[' ']' (skipItems inner ']' p) text
    | '{' :: _ => between '{' '}' (skipEntries inner p) text
    | _ => skipLiteral text

/-- Skip content, with a way to skip the content inside it. -/
def skipContent (p : Place) : Reader Unit := fun text =>
  if !p.isBare then skipBracketed inner p text
  else if text.head? = some ')' then some ((), text)
  else do
    match ← bareContent? text with
    | .fields => skipFields inner p text
    | .several => skipItems inner ')' p text
    | .single => skipBracketed inner p text

end

/-- Skip content that is nested in less than the given number of levels. -/
def skipWithin : Nat → Place → Reader Unit
  | 0, _ => fun _ => none
  | levels + 1, p => skipContent (skipWithin levels) p

/-- Skip content of any kind. -/
def skipAny (p : Place) : Reader Unit := skipWithin (p.room + 1) p

end FlowGraph.Document
